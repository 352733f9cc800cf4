import TagTemplate.Text.Digits
import TagTemplate.Yaml.Cell
import TagTemplate.Yaml.Fault
import TagTemplate.Yaml.Token

/-!
# Tags, anchors and directives

A tag is written in full between angle brackets, or as a handle and a suffix; a handle is one
exclamation mark, two, or a word between two. Directives give handles their meaning and name the
version of the language.
-/
namespace TagTemplate.Yaml

def isWordChar (c : Char) : Bool := c.isAlphanum || c == '_' || c == '-'

namespace Tag

/-- The characters that stand for themselves in a tag; inside brackets and in directives a comma and
square brackets do too. -/
def isUriChar (wide : Bool) (c : Char) : Bool :=
  isWordChar c || ";/?:@&=+$.!~*'()".toList.contains c ||
    (wide && (c == ',' || c == '[' || c == ']'))

def ofChar (c : Char) : TagName := (String.singleton c).toUTF8.toList

def ofChars (text : List Char) : TagName := text.flatMap ofChar

/-- How many bytes a character takes in UTF-8, given its first byte. -/
def sequenceLength? (octet : Nat) : Option Nat :=
  if octet < 0x80 then some 1
  else if 0xc0 ≤ octet ∧ octet < 0xe0 then some 2
  else if 0xe0 ≤ octet ∧ octet < 0xf0 then some 3
  else if 0xf0 ≤ octet ∧ octet < 0xf8 then some 4
  else none

/-- The value of a percent sign and two hexadecimal digits. -/
def readOctet? : List Cell → Option (Nat × List Cell)
  | p :: a :: b :: rest =>
    if p.char == '%' then (Text.natOfDigits? 16 [a.char, b.char]).map fun octet => (octet, rest)
    else none
  | _ => none

/-- Escaped bytes that continue a character. -/
def readContinuation : Nat → List Cell → Except Fault (TagName × List Cell)
  | 0, cells => .ok ([], cells)
  | more + 1, cells =>
    match readOctet? cells with
    | none => .error .badTag
    | some (octet, rest) =>
      if 0x80 ≤ octet ∧ octet < 0xc0 then do
        let (octets, rest) ← readContinuation more rest
        .ok (UInt8.ofNat octet :: octets, rest)
      else .error .badTag

def readEscape (cells : List Cell) : Except Fault (TagName × List Cell) :=
  match readOctet? cells with
  | none => .error .badTag
  | some (octet, rest) =>
    match sequenceLength? octet with
    | none => .error .badTag
    | some length => do
      let (octets, rest) ← readContinuation (length - 1) rest
      .ok (UInt8.ofNat octet :: octets, rest)

/-- The bytes up to the first character that may not stand in a tag, and how many characters they
are written with. The first argument bounds that number. -/
def readUriFrom (wide : Bool) : Nat → List Cell → Except Fault (Nat × TagName × List Cell)
  | 0, cells => .ok (0, [], cells)
  | _ + 1, [] => .ok (0, [], [])
  | bound + 1, c :: rest =>
    if c.char == '%' then do
      let (octets, rest) ← readEscape (c :: rest)
      let (count, more, rest) ← readUriFrom wide bound rest
      .ok (count + 1, octets ++ more, rest)
    else if isUriChar wide c.char then do
      let (count, more, rest) ← readUriFrom wide bound rest
      .ok (count + 1, ofChar c.char ++ more, rest)
    else .ok (0, [], c :: rest)

/-- The part of a tag up to a byte of zero, which ends it. -/
def beforeZero (name : TagName) : TagName := name.takeWhile (· != 0)

/-- What follows a start that has been read already; both together may not be empty. -/
def readUri (wide : Bool) (start : List Char) (cells : List Cell) :
    Except Fault (TagName × List Cell) := do
  let (count, name, rest) ← readUriFrom wide (cells.length + 1) cells
  if start.length + count = 0 then .error .badTag
  else .ok (beforeZero (ofChars (start.drop 1) ++ name), rest)

/-- An exclamation mark, the word after it, and the exclamation mark after that, if there is one. -/
def readHandle (cells : List Cell) : Except Fault (List Char × List Cell) :=
  match cells with
  | [] => .error .badTag
  | c :: rest =>
    if c.char == '!' then
      let word := Cell.chars (rest.takeWhile fun c => isWordChar c.char)
      match rest.dropWhile fun c => isWordChar c.char with
      | [] => .ok ('!' :: word, [])
      | d :: after =>
        if d.char == '!' then .ok ('!' :: word ++ ['!'], after) else .ok ('!' :: word, d :: after)
    else .error .badTag

def isClosed (handle : List Char) : Bool := handle.length > 1 && handle.getLast? == some '!'

/-- A tag after its exclamation mark and opening bracket. -/
def readVerbatim (cells : List Cell) : Except Fault (Token × List Cell) := do
  let (name, rest) ← readUri true [] cells
  match rest with
  | [] => .error .badTag
  | c :: rest => if c.char == '>' then .ok (.tag [] name, rest) else .error .badTag

/-- A tag that is not written in full. A lone exclamation mark is a tag of that name. -/
def readShorthand (cells : List Cell) : Except Fault (Token × List Cell) := do
  let (handle, rest) ← readHandle cells
  if isClosed handle then
    let (suffix, rest) ← readUri false [] rest
    .ok (.tag handle suffix, rest)
  else
    let (suffix, rest) ← readUri false handle rest
    if suffix.isEmpty then .ok (.tag [] (ofChars ['!']), rest) else .ok (.tag ['!'] suffix, rest)

/-- A tag, which a gap has to follow, or a comma in a flow collection. -/
def read (inFlow : Bool) (cells : List Cell) : Except Fault (Token × List Cell) := do
  let (token, rest) ← match cells with
    | _ :: c :: rest => if c.char == '<' then readVerbatim rest else readShorthand cells
    | _ => readShorthand cells
  if Cell.atGap rest || (inFlow && Cell.startsWith ',' rest) then .ok (token, rest)
  else .error .badTag

end Tag

namespace Anchor

def mayEnd : List Cell → Bool
  | [] => true
  | c :: rest => Cell.atGap (c :: rest) || "?:,]\x7d%@`".toList.contains c.char

/-- The name of an anchor or alias, given what follows its indicator. -/
def read (cells : List Cell) : Except Fault (List Char × List Cell) :=
  let name := Cell.chars (cells.takeWhile fun c => isWordChar c.char)
  let rest := cells.dropWhile fun c => isWordChar c.char
  if name.isEmpty || !mayEnd rest then .error .badAnchor else .ok (name, rest)

end Anchor

namespace Directive

def readNumber (cells : List Cell) : Except Fault (Nat × List Cell) :=
  let digits := Cell.chars (cells.takeWhile fun c => c.char.isDigit)
  if digits.isEmpty || digits.length > 9 then .error .badDirective
  else .ok (Nat.ofDigitChars 10 digits 0, cells.dropWhile fun c => c.char.isDigit)

def readVersion (cells : List Cell) : Except Fault (Token × List Cell) := do
  let (major, rest) ← readNumber (cells.dropWhile Cell.isBlank)
  match rest with
  | [] => .error .badDirective
  | c :: rest =>
    if c.char == '.' then
      let (minor, rest) ← readNumber rest
      .ok (.version major minor, rest)
    else .error .badDirective

def readHandle (cells : List Cell) : Except Fault (Token × List Cell) := do
  let (handle, rest) ← Tag.readHandle (cells.dropWhile Cell.isBlank)
  if handle ≠ ['!'] ∧ !Tag.isClosed handle then .error .badDirective
  else
    match rest with
    | [] => .error .badDirective
    | c :: _ =>
      if c.isBlank then
        let (start, rest) ← Tag.readUri true [] (rest.dropWhile Cell.isBlank)
        if Cell.atGap rest then .ok (.tagHandle handle start, rest) else .error .badDirective
      else .error .badDirective

/-- A directive, given what follows its percent sign; a comment may end its line. -/
def read (cells : List Cell) : Except Fault (Token × List Cell) := do
  let name := Cell.chars (cells.takeWhile fun c => isWordChar c.char)
  let rest := cells.dropWhile fun c => isWordChar c.char
  if !Cell.atGap rest then .error .badDirective
  else
    let (token, rest) ←
      if name = ['Y', 'A', 'M', 'L'] then readVersion rest
      else if name = ['T', 'A', 'G'] then readHandle rest
      else .error .badDirective
    let rest := rest.dropWhile Cell.isBlank
    let rest := if Cell.startsWith '#' rest then rest.dropWhile fun c => !c.isBreak else rest
    if Cell.atLineEnd rest then .ok (token, rest) else .error .badDirective

end Directive
end TagTemplate.Yaml
