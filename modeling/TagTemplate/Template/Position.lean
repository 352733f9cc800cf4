import TagTemplate.Text.Size

/-!
# Positions in a source text

A position names a place in a text twice: by its offset in bytes, and by its line and column. Lines
are ended by line feeds alone, and a column counts characters.
-/
namespace TagTemplate

structure Position where
  /-- Bytes before the place. -/
  offset : Nat
  /-- Counted from one. -/
  line : Nat
  /-- Counted from one, in characters. -/
  column : Nat
  deriving DecidableEq, Repr

namespace Position

/-- The position at a byte offset that lies between two characters of the source. -/
def locate (source : String) (offset : Nat) : Position :=
  let before := Text.takeBytes offset source.toList
  let lastLine := before.reverse.takeWhile (· != '\n')
  ⟨offset, before.count '\n' + 1, lastLine.length + 1⟩

def display (p : Position) : String := toString p.line ++ ":" ++ toString p.column

end Position
end TagTemplate
