/-!
# A text laid out in lines

Each character of a document with the place where it stands. Indentation decides what a document
means, so every later stage reads cells instead of characters. A carriage return with or without a
line feed after it and a next-line character are one line feed each; the line and paragraph
separators end a line too but keep their character.
-/
namespace TagTemplate.Yaml

structure Cell where
  char : Char
  line : Nat
  /-- Characters before it in its line. -/
  column : Nat
  /-- Bytes before it in the document. -/
  offset : Nat
  deriving Repr

def isBreakChar (c : Char) : Bool :=
  c == '\n' || c == '\r' || c == '\u0085' || c == '\u2028' || c == '\u2029'

def breakChar (c : Char) : Char := if c == '\u2028' || c == '\u2029' then c else '\n'

def isAllowedChar (c : Char) : Bool :=
  c == '\t' || c == '\n' || c == '\r' || (' ' ≤ c && c ≤ '~') || c == '\u0085' ||
    ('\u00a0' ≤ c && c ≤ '\ufffd') || 0x10000 ≤ c.toNat

namespace Cell

def isBreak (c : Cell) : Bool := isBreakChar c.char

def isBlank (c : Cell) : Bool := c.char == ' ' || c.char == '\t'

/-- Lays a text out from a given place on. -/
def layFrom (line column offset : Nat) : List Char → List Cell
  | [] => []
  | '\r' :: '\n' :: text => ⟨'\n', line, column, offset⟩ :: layFrom (line + 1) 0 (offset + 2) text
  | c :: text =>
    if isBreakChar c then
      ⟨breakChar c, line, column, offset⟩ :: layFrom (line + 1) 0 (offset + c.utf8Size) text
    else ⟨c, line, column, offset⟩ :: layFrom line (column + 1) (offset + c.utf8Size) text

def lay (text : List Char) : List Cell := layFrom 0 0 0 text

/-- Whether a cell holds a byte order mark at the start of a line. Such a mark takes a column. -/
def isOrderMark (c : Cell) : Bool := c.column == 0 && c.char == '\ufeff'

def chars (cells : List Cell) : List Char := cells.map Cell.char

/-- Whether a word ends before what is left: at a blank, a break or the end. -/
def atGap : List Cell → Bool
  | [] => true
  | c :: _ => c.isBlank || c.isBreak

def atLineEnd : List Cell → Bool
  | [] => true
  | c :: _ => c.isBreak

def startsWith (char : Char) : List Cell → Bool
  | [] => false
  | c :: _ => c.char == char

/-- Whether three of the same character stand alone at the start of a line. -/
def atMarker (char : Char) : List Cell → Bool
  | a :: b :: c :: rest =>
    a.column == 0 && a.char == char && b.char == char && c.char == char && atGap rest
  | _ => false

/-- Whether what is left begins with a line that begins or ends a document. -/
def atDocumentMarker (cells : List Cell) : Bool := atMarker '-' cells || atMarker '.' cells

end Cell
end TagTemplate.Yaml
