import TagTemplate.Document.Value
import TagTemplate.Json.Text

/-!
# JSON documents

A document is one object with blanks around it. Brackets may be nested `depthLimit - 1` deep.
Entries are kept in the order in which they are written, also those with one key.
-/
namespace TagTemplate.Json

/-- The characters that may stand between two symbols. -/
def isSpace (c : Char) : Bool := c == ' ' || c == '\n' || c == '\t' || c == '\r'

def skipSpace (text : List Char) : List Char := text.dropWhile isSpace

def depthLimit : Nat := 128

/-- Reads the rest of a word, given the characters that are left of it. -/
def readWord (value : Value) : List Char → List Char → Except Fault (Value × List Char)
  | [], text => .ok (value, text)
  | _ :: _, [] => .error .truncated
  | c :: word, d :: text => if c = d then readWord value word text else .error .malformed

section Items

variable {α : Type}

/-- The items after the first one, each after a comma, up to the closing bracket. The first argument
bounds the number of items. -/
def readMore (close : Char) (readItem : List Char → Except Fault (α × List Char)) :
    Nat → List Char → Except Fault (List α × List Char)
  | 0, _ => .error .truncated
  | bound + 1, text =>
    match skipSpace text with
    | [] => .error .truncated
    | c :: text =>
      if c = close then .ok ([], text)
      else if c = ',' then
        match skipSpace text with
        | [] => .error .truncated
        | c :: text =>
          if c = close then .error .malformed
          else do
            let (item, rest) ← readItem (c :: text)
            let (items, rest) ← readMore close readItem bound rest
            .ok (item :: items, rest)
      else .error .malformed

/-- The items between two brackets, given the text after the opening one. -/
def readItems (close : Char) (readItem : List Char → Except Fault (α × List Char))
    (text : List Char) : Except Fault (List α × List Char) :=
  match skipSpace text with
  | [] => .error .truncated
  | c :: text =>
    if c = close then .ok ([], text)
    else do
      let (item, rest) ← readItem (c :: text)
      let (items, rest) ← readMore close readItem (text.length + 1) rest
      .ok (item :: items, rest)

end Items

def readEntry (readValue : List Char → Except Fault (Value × List Char)) :
    List Char → Except Fault ((String × Value) × List Char)
  | '"' :: text => do
    let (key, rest) ← Text.read text
    match skipSpace rest with
    | ':' :: rest =>
      let (value, rest) ← readValue rest
      .ok ((key, value), rest)
    | rest => .error (.expected rest)
  | text => .error (.expected text)

def readNumber (text : List Char) : Except Fault (Value × List Char) := do
  let (numeral, rest) ← Numeral.read text
  match numeral.value? with
  | some n => .ok (.number n, rest)
  | none => .error .malformed

/-- A value other than an array or an object. -/
def readScalar : List Char → Except Fault (Value × List Char)
  | 'n' :: text => readWord .null ['u', 'l', 'l'] text
  | 't' :: text => readWord (.bool true) ['r', 'u', 'e'] text
  | 'f' :: text => readWord (.bool false) ['a', 'l', 's', 'e'] text
  | '"' :: text => do
    let (content, rest) ← Text.read text
    .ok (.string content, rest)
  | [] => .error .truncated
  | c :: text => if c = '-' ∨ c.isDigit then readNumber (c :: text) else .error .malformed

/-- A value inside as many brackets as the limit leaves, given how many more may be opened. -/
def readValue : Nat → List Char → Except Fault (Value × List Char)
  | depth, text =>
    match skipSpace text with
    | '[' :: text =>
      match depth with
      | 0 => .error .malformed
      | depth + 1 => do
        let (items, rest) ← readItems ']' (readValue depth) text
        .ok (.sequence items, rest)
    | '\x7b' :: text =>
      match depth with
      | 0 => .error .malformed
      | depth + 1 => do
        let (entries, rest) ← readItems '\x7d' (readEntry (readValue depth)) text
        .ok (.mapping entries, rest)
    | text => readScalar text

def readDocument (text : List Char) : Except Fault Document :=
  match skipSpace text with
  | '\x7b' :: text => do
    let (entries, rest) ← readItems '\x7d' (readEntry (readValue (depthLimit - 2))) text
    match skipSpace rest with
    | [] => .ok entries
    | _ :: _ => .error .malformed
  | '[' :: _ => .error .notAnObject
  | text => do
    let _ ← readScalar text
    .error .notAnObject

end TagTemplate.Json
