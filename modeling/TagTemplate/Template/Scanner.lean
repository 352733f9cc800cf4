import TagTemplate.Template.Error
import TagTemplate.Template.Piece

/-!
# Scanning a template

A scanner walks through a template and hands out one segment per piece: text to be copied, or a tag
with the byte range of its marker. An escape is the text of one opening brace. The first marker that
is no piece gives an error, after which the scanner hands out nothing more.
-/
namespace TagTemplate

/-- A tag and the byte range of its marker, braces included. -/
structure Tag where
  name : String
  start : Nat
  stop : Nat
  deriving DecidableEq, Repr

inductive Segment where
  | text (content : String)
  | tag (tag : Tag)
  deriving DecidableEq, Repr

/-- The segment of a piece that begins at a byte offset. -/
def Piece.segment (offset : Nat) : Piece → Segment
  | literal text => .text (String.ofList text)
  | escape _ => .text "\x7b"
  | tag left name right =>
    .tag ⟨String.ofList name, offset, offset + Text.size (tag left name right).print⟩

/-- The error for a marker at fault, given its position. -/
def Piece.Fault.toError (position : Position) : Piece.Fault → RenderError
  | unterminated => .unterminatedPlaceholder position
  | malformed interior => .malformedTag (String.ofList interior) position

structure Scanner where
  source : String
  /-- Bytes of the source that have been handed out. -/
  offset : Nat
  /-- The characters of the source after them. -/
  rest : List Char
  failed : Bool

namespace Scanner

def ofString (template : String) : Scanner := ⟨template, 0, template.toList, false⟩

/-- The next segment or error, if there is one, and the scanner after it. -/
def next (s : Scanner) : Option (Except RenderError Segment) × Scanner :=
  if s.failed || s.rest.isEmpty then (none, s)
  else
    match Piece.read s.rest with
    | .error fault =>
      (some (.error (fault.toError (.locate s.source s.offset))), { s with failed := true })
    | .ok (piece, rest) =>
      (some (.ok (piece.segment s.offset)),
        { s with offset := s.offset + Text.size piece.print, rest })

/-- How many characters a scanner that has not failed has left, and zero for one that has. -/
def remaining (s : Scanner) : Nat := if s.failed then 0 else s.rest.length

theorem remaining_lt_of_next {s s' : Scanner} {result : Except RenderError Segment}
    (h : s.next = (some result, s')) : s'.remaining < s.remaining := by
  rw [next] at h
  split at h
  · simp at h
  · rename_i hc
    simp only [Bool.or_eq_true, not_or, Bool.not_eq_true, List.isEmpty_eq_false_iff] at hc
    split at h
    · simp only [Prod.mk.injEq] at h
      rw [← h.2]
      simp only [remaining, hc.1, if_true, if_false, Bool.false_eq_true]
      exact List.length_pos_iff.2 hc.2
    · rename_i piece rest hread
      simp only [Prod.mk.injEq] at h
      rw [← h.2]
      simp only [remaining, hc.1, if_false, Bool.false_eq_true]
      exact Piece.length_lt_of_read hc.2 hread

/-- All that a scanner hands out until it is exhausted. -/
def results (s : Scanner) : List (Except RenderError Segment) :=
  match h : s.next with
  | (none, _) => []
  | (some result, s') =>
    have := remaining_lt_of_next h
    result :: s'.results
termination_by s.remaining

/-- What the first `calls` calls of `next` give. -/
def take (s : Scanner) : Nat → List (Option (Except RenderError Segment))
  | 0 => []
  | calls + 1 => s.next.1 :: s.next.2.take calls

end Scanner

/-- All that scanning a template gives: segments, and at most one error, which comes last. -/
def scan (template : String) : List (Except RenderError Segment) :=
  (Scanner.ofString template).results

end TagTemplate
