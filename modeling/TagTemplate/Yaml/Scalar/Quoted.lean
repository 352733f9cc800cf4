import TagTemplate.Text.Digits
import TagTemplate.Yaml.Cell
import TagTemplate.Yaml.Fault
import TagTemplate.Yaml.Scalar.Gap

/-!
# Quoted scalars

Between single quotes a quote is written twice and all else stands for itself. Between double quotes
a backslash begins an escape; before a line break it removes the break. Line breaks fold as in plain
scalars, also next to the quotes.
-/
namespace TagTemplate.Yaml.Quoted

def escape? (c : Char) : Option Char :=
  match c with
  | '0' => some (Char.ofNat 0)
  | 'a' => some '\x07'
  | 'b' => some '\x08'
  | 't' => some '\t'
  | '\t' => some '\t'
  | 'n' => some '\n'
  | 'v' => some '\x0b'
  | 'f' => some '\x0c'
  | 'r' => some '\r'
  | 'e' => some '\x1b'
  | ' ' => some ' '
  | '"' => some '"'
  | '/' => some '/'
  | '\\' => some '\\'
  | 'N' => some '\u0085'
  | '_' => some '\u00a0'
  | 'L' => some '\u2028'
  | 'P' => some '\u2029'
  | _ => none

/-- How many hexadecimal digits follow a backslash and a letter. -/
def codeLength? (c : Char) : Option Nat :=
  match c with
  | 'x' => some 2
  | 'u' => some 4
  | 'U' => some 8
  | _ => none

/-- The character with a code point, unless it is a surrogate or there is none. -/
def charOfCode? (n : Nat) : Option Char := if n.isValidChar then some (Char.ofNat n) else none

/-- What an escape stands for, given what follows its backslash. -/
def readEscape : List Cell → Except Fault (Char × List Cell)
  | [] => .error .unfinished
  | c :: rest =>
    match codeLength? c.char with
    | some length =>
      let digits := Cell.chars (rest.take length)
      if digits.length < length then .error .badEscape
      else
        match (Text.natOfDigits? 16 digits).bind charOfCode? with
        | some c => .ok (c, rest.drop length)
        | none => .error .badEscape
    | none =>
      match escape? c.char with
      | some c => .ok (c, rest)
      | none => .error .badEscape

/-- Reads on after the given text and gap up to the closing quote: the text in reverse, and what is
left. The first argument bounds the number of characters that are read. -/
def readFrom (double : Bool) :
    Nat → List Char → Gap → List Cell → Except Fault (List Char × List Cell)
  | 0, _, _, _ => .error .unfinished
  | _ + 1, _, _, [] => .error .unfinished
  | bound + 1, text, gap, c :: rest =>
    if c.isBlank then readFrom double bound text (gap.addBlank c.char) rest
    else if c.isBreak then readFrom double bound text (gap.addBreak c.char) rest
    else if Cell.atDocumentMarker (c :: rest) then .error .unfinished
    else
      let text := gap.fold ++ text
      if double then
        if c.char == '"' then .ok (text, rest)
        else if c.char == '\\' then
          match rest with
          | [] => .error .unfinished
          | d :: after =>
            if d.isBreak then readFrom double bound text (.breaks none []) after
            else
              match readEscape rest with
              | .ok (char, rest) => readFrom double bound (char :: text) .none rest
              | .error fault => .error fault
        else readFrom double bound (c.char :: text) .none rest
      else if c.char == '\'' then
        match rest with
        | [] => .ok (text, [])
        | d :: after =>
          if d.char == '\'' then readFrom double bound ('\'' :: text) .none after
          else .ok (text, rest)
      else readFrom double bound (c.char :: text) .none rest

/-- A quoted scalar, given what follows the opening quote. -/
def read (double : Bool) (cells : List Cell) : Except Fault (String × List Cell) := do
  let (text, rest) ← readFrom double (cells.length + 1) [] .none cells
  .ok (String.ofList text.reverse, rest)

end TagTemplate.Yaml.Quoted
