import TagTemplate.Proofs.Piece.Grammar
import TagTemplate.Template.Render

/-!
# What a scanner hands out

A scanner hands out a segment for each piece that its text begins with, and an error for a fault.
`resultsFrom` names all that is handed out from a place on, and the three equations say it for the
three ways in which a text can begin.
-/
namespace TagTemplate

theorem Text.size_replicate_open (length : Nat) :
    Text.size (List.replicate length '{') = length := by
  induction length with
  | zero => rfl
  | succ length ih => rw [List.replicate_succ, Text.size_cons, ih, Nat.add_comm]; rfl

theorem Text.size_print_pos {piece : Piece} (h : piece.WellFormed) :
    0 < Text.size piece.print := by
  obtain ⟨c, text, hprint⟩ := List.exists_cons_of_ne_nil (Piece.print_ne_nil h)
  have hc := c.utf8Size_pos
  rw [hprint, Text.size_cons]
  omega

theorem Piece.Fault.position_toError (fault : Fault) (position : Position) :
    (fault.toError position).position = position := by
  cases fault <;> rfl

variable {source : String} {offset : Nat} {text rest : List Char} {piece : Piece}
  {fault : Piece.Fault}

/-- All that a scanner of a source hands out from a byte offset on, where a text is left. -/
def resultsFrom (source : String) (offset : Nat) (text : List Char) :
    List (Except RenderError Segment) := Scanner.results ⟨source, offset, text, false⟩

theorem scan_eq_resultsFrom (template : String) :
    scan template = resultsFrom template 0 template.toList := rfl

theorem Scanner.results_of_next_none {s s' : Scanner} (h : s.next = (none, s')) :
    s.results = [] := by
  rw [results]
  split
  · rfl
  · rename_i heq
    simp [h] at heq

theorem Scanner.results_of_next_some {s s' : Scanner} {result : Except RenderError Segment}
    (h : s.next = (some result, s')) : s.results = result :: s'.results := by
  rw [results]
  split
  · rename_i heq
    simp [h] at heq
  · rename_i heq
    simp only [h, Prod.mk.injEq, Option.some.injEq] at heq
    obtain ⟨rfl, rfl⟩ := heq
    rfl

@[simp] theorem resultsFrom_nil : resultsFrom source offset [] = [] := by
  have hnext : Scanner.next ⟨source, offset, [], false⟩ = (none, ⟨source, offset, [], false⟩) := by
    simp [Scanner.next]
  exact Scanner.results_of_next_none hnext

theorem resultsFrom_fault (h : fault.At text) :
    resultsFrom source offset text = [.error (fault.toError (.locate source offset))] := by
  have hne : text.isEmpty = false := List.isEmpty_eq_false_iff.2 (Piece.ne_nil_of_fault h)
  have hnext : Scanner.next ⟨source, offset, text, false⟩ =
      (some (.error (fault.toError (.locate source offset))), ⟨source, offset, text, true⟩) := by
    simp [Scanner.next, hne, Piece.read_of_fault h]
  have hend : Scanner.next ⟨source, offset, text, true⟩ = (none, ⟨source, offset, text, true⟩) := by
    simp [Scanner.next]
  rw [resultsFrom, Scanner.results_of_next_some hnext, Scanner.results_of_next_none hend]

theorem resultsFrom_piece (hwf : piece.WellFormed) (hends : piece.EndsBefore rest) :
    resultsFrom source offset (piece.print ++ rest) =
      .ok (piece.segment offset) ::
        resultsFrom source (offset + Text.size piece.print) rest := by
  have hne : (piece.print ++ rest).isEmpty = false := by
    simp [Piece.print_ne_nil hwf]
  rw [resultsFrom, resultsFrom]
  apply Scanner.results_of_next_some
  simp [Scanner.next, hne, Piece.read_print_append hwf hends]

namespace Scanner

variable {s s' : Scanner} {before : List Char} {result : Option (Except RenderError Segment)}

def IsDone (s : Scanner) : Prop := s.failed = true ∨ s.rest = []

theorem next_of_isDone (h : s.IsDone) : s.next = (none, s) := by
  have hdone : (s.failed || s.rest.isEmpty) = true := by
    rw [Bool.or_eq_true, List.isEmpty_iff]
    exact h
  rw [next, if_pos hdone]

theorem next_of_not_isDone (h : ¬s.IsDone) :
    s.next =
      match Piece.read s.rest with
      | .error fault =>
        (some (.error (fault.toError (.locate s.source s.offset))), { s with failed := true })
      | .ok (piece, rest) =>
        (some (.ok (piece.segment s.offset)),
          { s with offset := s.offset + Text.size piece.print, rest }) := by
  have hrunning : ¬(s.failed || s.rest.isEmpty) = true := by
    rw [Bool.or_eq_true, List.isEmpty_iff]
    exact h
  rw [next]
  exact if_neg hrunning

theorem take_of_next (h : s.next = (result, s')) (calls : Nat) :
    s.take (calls + 1) = result :: s'.take calls := by
  rw [take, h]

theorem take_of_isDone (h : s.IsDone) (calls : Nat) : s.take calls = List.replicate calls none := by
  induction calls with
  | zero => rfl
  | succ calls ih => rw [take_of_next (next_of_isDone h), ih, List.replicate_succ]

theorem results_of_isDone (h : s.IsDone) : s.results = [] :=
  results_of_next_none (next_of_isDone h)

inductive Step (s : Scanner) : Option (Except RenderError Segment) → Scanner → Prop where
  | done (h : s.IsDone) : Step s none s
  | fault {fault : Piece.Fault} (h : ¬s.IsDone) (hfault : fault.At s.rest) :
      Step s (some (.error (fault.toError (.locate s.source s.offset)))) { s with failed := true }
  | piece {piece : Piece} {rest : List Char} (h : ¬s.IsDone) (hrest : s.rest = piece.print ++ rest)
      (hwf : piece.WellFormed) (hends : piece.EndsBefore rest) :
      Step s (some (.ok (piece.segment s.offset)))
        { s with offset := s.offset + Text.size piece.print, rest }

theorem step_next (s : Scanner) : s.Step s.next.1 s.next.2 := by
  by_cases h : s.IsDone
  · rw [next_of_isDone h]
    exact .done h
  · have hne : s.rest ≠ [] := fun hnil => h (.inr hnil)
    rw [next_of_not_isDone h]
    cases hread : Piece.read s.rest with
    | error fault => exact .fault h ((Piece.read_eq_error_iff hne).1 hread)
    | ok result =>
      obtain ⟨piece, rest⟩ := result
      obtain ⟨hrest, hwf, hends⟩ := (Piece.read_eq_ok_iff hne).1 hread
      exact .piece h hrest hwf hends

theorem step_of_next (h : s.next = (result, s')) : s.Step result s' := by
  have hstep := s.step_next
  rwa [h] at hstep

/-- The calls give what is handed out until the scanner is exhausted, and then nothing. -/
theorem getElem?_take {calls i : Nat} (h : i < calls) :
    (s.take calls)[i]? = some s.results[i]? := by
  induction calls generalizing s i with
  | zero => exact absurd h (Nat.not_lt_zero i)
  | succ calls ih =>
    obtain ⟨result, s', hnext⟩ : ∃ result s', s.next = (result, s') := ⟨_, _, rfl⟩
    rw [take_of_next hnext]
    cases result with
    | none =>
      have hdone : s.IsDone ∧ s' = s := by
        cases step_of_next hnext with
        | done hdone => exact ⟨hdone, rfl⟩
      rw [results_of_isDone hdone.1, hdone.2, take_of_isDone hdone.1, ← List.replicate_succ,
        List.getElem?_replicate, if_pos h]
      rfl
    | some result =>
      rw [results_of_next_some hnext]
      cases i with
      | zero => rfl
      | succ i => exact ih (Nat.lt_of_succ_lt_succ h)

theorem length_results_le (s : Scanner) : s.results.length ≤ s.remaining := by
  induction hlength : s.remaining using Nat.strongRecOn generalizing s with
  | ind n ih =>
    obtain ⟨result, s', hnext⟩ : ∃ result s', s.next = (result, s') := ⟨_, _, rfl⟩
    cases result with
    | none =>
      rw [results_of_next_none hnext]
      exact Nat.zero_le n
    | some result =>
      have hlt := remaining_lt_of_next hnext
      have hrest := ih s'.remaining (by omega) s' rfl
      rw [results_of_next_some hnext, List.length_cons]
      omega

/-- Whether a scanner has handed out a part of its source and has left what stands after it. No run
of opening braces lies on both sides of its place. -/
structure InPlace (s : Scanner) (before : List Char) : Prop where
  source_eq : s.source.toList = before ++ s.rest
  size_eq : Text.size before = s.offset
  border : ¬(before.getLast? = some '{' ∧ s.rest.head? = some '{')

theorem inPlace_ofString (template : String) : (ofString template).InPlace [] :=
  ⟨rfl, rfl, by simp⟩

theorem InPlace.step (h : s.InPlace before) (hstep : s.Step result s') :
    ∃ before', s'.InPlace before' := by
  cases hstep with
  | done => exact ⟨before, h⟩
  | fault => exact ⟨before, h.source_eq, h.size_eq, h.border⟩
  | @piece piece rest _ hrest hwf hends =>
    refine ⟨before ++ piece.print, ?_, ?_, ?_⟩
    · rw [h.source_eq, hrest, List.append_assoc]
    · rw [Text.size_append, h.size_eq]
    · rw [Piece.getLast?_append_of_ne_nil (Piece.print_ne_nil hwf)]
      exact Piece.border_of_endsBefore hwf hends

end Scanner
end TagTemplate
