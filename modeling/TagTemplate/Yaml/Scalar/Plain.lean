import TagTemplate.Yaml.Cell
import TagTemplate.Yaml.Fault
import TagTemplate.Yaml.Scalar.Gap

/-!
# Plain scalars

Scalars without quotes. One ends before a colon that a gap follows, a comment after a gap, a
document marker, a line that is not indented enough and, inside a flow collection, a bracket or a
comma.
-/
namespace TagTemplate.Yaml.Plain

def isFlowIndicator (c : Char) : Bool :=
  c == ',' || c == '[' || c == ']' || c == '\x7b' || c == '\x7d'

/-- Whether a character ends a scalar wherever it stands in a word. -/
def endsWord (inFlow : Bool) (c : Cell) (rest : List Cell) : Bool :=
  (c.char == ':' && Cell.atGap rest) || (inFlow && isFlowIndicator c.char)

/-- Whether a character after a gap does not belong to the scalar any more. -/
def endsAfterGap (inFlow : Bool) (margin : Nat) (cells : List Cell) : Bool :=
  match cells with
  | [] => true
  | c :: _ => c.char == '#' || Cell.atDocumentMarker cells || (!inFlow && c.column < margin)

/-- Whether a colon in a flow collection is followed by what makes it ambiguous. -/
def isAmbiguous (inFlow : Bool) (c : Cell) : List Cell → Bool
  | [] => false
  | d :: _ => inFlow && c.char == ':' && (isFlowIndicator d.char || d.char == '?')

/-- Reads on after the given text and gap: the text in reverse, whether the scalar ended after a
line break, and what is left. -/
def readFrom (inFlow : Bool) (margin : Nat) (text : List Char) (gap : Gap) :
    List Cell → Except Fault (List Char × Bool × List Cell)
  | [] => .ok (text, gap.hasBreak, [])
  | c :: rest =>
    if c.isBlank then
      if gap.hasBreak && c.column < margin && c.char == '\t' then .error .tabInIndentation
      else readFrom inFlow margin text (gap.addBlank c.char) rest
    else if c.isBreak then readFrom inFlow margin text (gap.addBreak c.char) rest
    else if !gap.isNone && endsAfterGap inFlow margin (c :: rest) then
      .ok (text, gap.hasBreak, c :: rest)
    else if isAmbiguous inFlow c rest then .error .unexpectedCharacter
    else if endsWord inFlow c rest then .ok (text, gap.hasBreak, c :: rest)
    else readFrom inFlow margin (c.char :: (gap.fold ++ text)) .none rest

/-- A plain scalar whose lines are to be indented by at least `margin`. -/
def read (inFlow : Bool) (margin : Nat) (cells : List Cell) :
    Except Fault (String × Bool × List Cell) := do
  let (text, broken, rest) ← readFrom inFlow margin [] .none cells
  .ok (String.ofList text.reverse, broken, rest)

end TagTemplate.Yaml.Plain
