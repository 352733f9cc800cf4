import TagTemplate.Json.Numeral
import TagTemplate.Text.Digits
import TagTemplate.Text.Size

/-!
# JSON texts

What stands between two quotes: characters for themselves, except controls, and escapes. A character
beyond the basic plane may be escaped as a pair of surrogates, which do not occur alone.
-/
namespace TagTemplate.Json.Text

open TagTemplate.Text (hexDigit? size)

def escape? (c : Char) : Option Char :=
  match c with
  | '"' => some '"'
  | '\\' => some '\\'
  | '/' => some '/'
  | 'b' => some '\x08'
  | 'f' => some '\x0c'
  | 'n' => some '\n'
  | 'r' => some '\r'
  | 't' => some '\t'
  | _ => none

def unit? (a b c d : Char) : Option Nat := do
  let a ← hexDigit? a
  let b ← hexDigit? b
  let c ← hexDigit? c
  let d ← hexDigit? d
  some (((a * 16 + b) * 16 + c) * 16 + d)

/-- The value of the four hexadecimal digits of an escape, and the text after them. -/
def readUnit (text : List Char) : Except Fault (Nat × List Char) :=
  match text with
  | a :: b :: c :: d :: rest =>
    match unit? a b c d with
    | some n => .ok (n, rest)
    | none => .error .malformed
  | _ => .error (if size text < 4 then .truncated else .malformed)

/-- The second half of a surrogate pair, given the value of the first. -/
def readPair (high : Nat) : List Char → Except Fault (Char × List Char)
  | '\\' :: 'u' :: text => do
    let (low, rest) ← readUnit text
    if 0xdc00 ≤ low ∧ low ≤ 0xdfff then
      .ok (Char.ofNat (0x10000 + (high - 0xd800) * 0x400 + (low - 0xdc00)), rest)
    else .error .malformed
  | ['\\'] => .error .truncated
  | text => .error (.expected text)

/-- The character of an escape, given the text after its backslash and letter. -/
def readCodePoint (text : List Char) : Except Fault (Char × List Char) := do
  let (n, rest) ← readUnit text
  if 0xdc00 ≤ n ∧ n ≤ 0xdfff then .error .malformed
  else if 0xd800 ≤ n ∧ n ≤ 0xdbff then readPair n rest
  else .ok (Char.ofNat n, rest)

/-- What an escape stands for, given the text after its backslash. -/
def readEscape : List Char → Except Fault (Char × List Char)
  | [] => .error .truncated
  | 'u' :: text => readCodePoint text
  | c :: rest =>
    match escape? c with
    | some c => .ok (c, rest)
    | none => .error .malformed

/-- The text up to the closing quote, given the text after the opening one. The first argument
bounds the number of characters that are read. -/
def readChars : Nat → List Char → Except Fault (List Char × List Char)
  | 0, _ => .error .truncated
  | _ + 1, [] => .error .truncated
  | bound + 1, c :: text =>
    if c = '"' then .ok ([], text)
    else if c = '\\' then do
      let (c, rest) ← readEscape text
      let (chars, rest) ← readChars bound rest
      .ok (c :: chars, rest)
    else if c.toNat < 0x20 then .error .malformed
    else do
      let (chars, rest) ← readChars bound text
      .ok (c :: chars, rest)

/-- The text up to the closing quote, and what follows the quote. -/
def read (text : List Char) : Except Fault (String × List Char) := do
  let (chars, rest) ← readChars (text.length + 1) text
  .ok (String.ofList chars, rest)

end TagTemplate.Json.Text
