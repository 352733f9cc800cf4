/-!
# Gaps in flow scalars

A plain or quoted scalar may go on in the next line. Blanks between two of its words are kept if
they are in one line; at a line break they are dropped, a single break becomes a space, and of
several the first is dropped and the others are kept.
-/
namespace TagTemplate.Yaml

/-- What stands between two words of a scalar; texts are in reverse. -/
inductive Gap where
  /-- Blanks in one line, or nothing. -/
  | blanks (reversed : List Char)
  /-- Line breaks: the first one, unless it is escaped, and those after it. -/
  | breaks (first : Option Char) (reversed : List Char)
  deriving Repr

namespace Gap

def none : Gap := .blanks []

def isNone : Gap → Bool
  | blanks [] => true
  | _ => false

def hasBreak : Gap → Bool
  | blanks _ => false
  | breaks _ _ => true

/-- One more blank; after a break it is dropped. -/
def addBlank (c : Char) : Gap → Gap
  | blanks reversed => .blanks (c :: reversed)
  | gap => gap

/-- One more line break; blanks before the first one are dropped. -/
def addBreak (c : Char) : Gap → Gap
  | blanks _ => .breaks (some c) []
  | breaks first reversed => .breaks first (c :: reversed)

/-- The text that a gap stands for, in reverse. -/
def fold : Gap → List Char
  | blanks reversed => reversed
  | breaks (some '\n') [] => [' ']
  | breaks (some '\n') reversed => reversed
  | breaks (some c) reversed => reversed ++ [c]
  | breaks Option.none reversed => reversed

end Gap
end TagTemplate.Yaml
