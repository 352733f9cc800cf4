import TagTemplate.Proofs.Template.Cuts
import TagTemplate.Proofs.Template.Places

/-!
# Where the runs of a template stand

A run of three or more opening braces is no part of literal text or of a tag, and it does not go on
beyond the piece that it begins in. So the maximal runs of that length are the escapes of a
template, in the same places.
-/
namespace TagTemplate
namespace Piece

variable {piece : Piece} {pieces : List Piece} {before after : List Char} {length : Nat}

/-- No run goes on from some pieces of a normal sequence to the others. -/
theorem border_printAll {a b : List Piece} (h : Normal (a ++ b)) :
    ¬((printAll a).getLast? = some '{' ∧ (printAll b).head? = some '{') := by
  induction a with
  | nil => simp
  | cons piece a ih =>
    by_cases hnil : printAll a = []
    · have hends : piece.EndsBefore (printAll (a ++ b)) := endsBefore_printAll h
      rw [printAll_append, hnil, List.nil_append] at hends
      rw [printAll_cons, hnil, List.append_nil]
      exact border_of_endsBefore (normal_cons.1 h).1 hends
    · rw [printAll_cons, getLast?_append_of_ne_nil hnil]
      exact ih (normal_cons.1 h).2.2

/-- A run lies on one side of a border that parts no run. -/
theorem run_append {a b : List Char}
    (hborder : ¬(a.getLast? = some '{' ∧ b.head? = some '{'))
    (h : a ++ b = before ++ (List.replicate length '{' ++ after)) :
    (∃ more, before = a ++ more ∧ b = more ++ (List.replicate length '{' ++ after)) ∨
      ∃ more, a = before ++ List.replicate length '{' ++ more ∧ after = more ++ b := by
  rcases List.append_eq_append_iff.1 h with ⟨more, hbefore, hb⟩ | ⟨more, ha, hrest⟩
  · exact .inl ⟨more, hbefore, hb⟩
  rcases List.append_eq_append_iff.1 hrest with ⟨rest, hmore, hafter⟩ | ⟨rest, hrun, hb⟩
  · exact .inr ⟨rest, by rw [ha, hmore, List.append_assoc], hafter⟩
  -- The run begins before the border with `more` and ends after it with `rest`.
  by_cases hmore : more = []
  · subst hmore
    exact .inl ⟨[], by simp [ha], by rw [hb, hrun]; rfl⟩
  by_cases hrest : rest = []
  · subst hrest
    exact .inr ⟨[], by rw [ha, hrun]; simp, by rw [hb]; rfl⟩
  · have hopen : ∀ c ∈ more ++ rest, c = '{' := by
      intro c hc
      rw [← hrun] at hc
      exact List.eq_of_mem_replicate hc
    refine absurd ⟨?_, ?_⟩ hborder
    · rw [ha, getLast?_append_of_ne_nil hmore, List.getLast?_eq_some_getLast hmore,
        hopen _ (List.mem_append_left _ (List.getLast_mem hmore))]
    · obtain ⟨c, rest, rfl⟩ := List.exists_cons_of_ne_nil hrest
      rw [hb, List.cons_append, List.head?_cons, hopen c (by simp)]

theorem eq_nil_of_forall_open {text : List Char} (h : ∀ c ∈ text, c = '{')
    (hedge : text.getLast? ≠ some '{' ∨ text.head? ≠ some '{') : text = [] := by
  by_contra hne
  rcases hedge with hlast | hhead
  · exact hlast (by rw [List.getLast?_eq_some_getLast hne, h _ (List.getLast_mem hne)])
  · exact hhead (by rw [List.head?_eq_some_head hne, h _ (List.head_mem hne)])

/-- Only an escape has three opening braces in a row, and it has nothing beside them. -/
theorem eq_escape_of_run (hwf : piece.WellFormed)
    (h : piece.print = before ++ List.replicate length '{' ++ after) (hlength : 3 ≤ length)
    (hbefore : before.getLast? ≠ some '{') (hafter : after.head? ≠ some '{') :
    before = [] ∧ piece = escape length := by
  cases piece with
  | literal text =>
    obtain ⟨k, rfl⟩ : ∃ k, length = k + 3 := Nat.exists_eq_add_of_le' hlength
    have htext : text = before ++ ['{', '{'] ++ (List.replicate (k + 1) '{' ++ after) := by
      rw [print] at h
      simp [h, List.replicate_succ]
    exact absurd ⟨before, _, htext.symm⟩ hwf.2
  | escape length' =>
    have hopen : ∀ c ∈ before ++ List.replicate length '{' ++ after, c = '{' := by
      rw [← h]
      exact fun c => List.eq_of_mem_replicate
    have hbefore := eq_nil_of_forall_open (fun c hc => hopen c (by simp [hc])) (.inl hbefore)
    have hafter := eq_nil_of_forall_open (fun c hc => hopen c (by simp [hc])) (.inr hafter)
    subst hbefore hafter
    have hsame : length' = length := by simpa [print] using congrArg List.length h
    exact ⟨rfl, congrArg escape hsame⟩
  | tag left name right =>
    -- A tag has just the two opening braces that it begins with.
    have hcount := congrArg (List.count '{') h
    have hopen : '{' ∉ left ++ name ++ right := notMem_interior hwf rfl rfl
    have hinterior := List.count_eq_zero_of_not_mem hopen
    simp only [print, List.count_cons, List.count_append, List.count_replicate] at hcount hinterior
    simp at hcount
    omega

/-- A run of three or more opening braces is one of the escapes that a normal sequence prints. -/
theorem exists_escape_of_run (h : Normal pieces)
    (hprint : printAll pieces = before ++ (List.replicate length '{' ++ after))
    (hlength : 3 ≤ length) (hbefore : before.getLast? ≠ some '{')
    (hafter : after.head? ≠ some '{') :
    ∃ first others, pieces = first ++ escape length :: others ∧ printAll first = before := by
  induction pieces generalizing before with
  | nil =>
    have hnil := congrArg List.length hprint
    simp at hnil
    omega
  | cons piece pieces ih =>
    obtain ⟨hwf, -, hnormal⟩ := normal_cons.1 h
    have hborder := border_of_endsBefore hwf (endsBefore_printAll h)
    -- The run lies in the other pieces, or it is the whole of the first one.
    rcases run_append hborder hprint with ⟨more, rfl, hrest⟩ | ⟨more, hpiece, rfl⟩
    · have hmore : more.getLast? ≠ some '{' := by
        by_cases hnil : more = []
        · simp [hnil]
        · rwa [getLast?_append_of_ne_nil hnil] at hbefore
      obtain ⟨first, others, rfl, rfl⟩ := ih hnormal hrest hmore
      exact ⟨piece :: first, others, rfl, rfl⟩
    · have hmore : more.head? ≠ some '{' := by
        cases more with
        | nil => simp
        | cons c more => exact hafter
      obtain ⟨rfl, rfl⟩ := eq_escape_of_run hwf hpiece hlength hbefore hmore
      exact ⟨[], pieces, rfl, rfl⟩

end Piece

open Piece (Normal printAll)

variable {pieces : List Piece} {start stop : Nat}

/-- The maximal runs of three or more opening braces are the escapes. -/
theorem isRun_iff (h : Normal pieces) :
    IsRun (String.ofList (printAll pieces)) start stop ∧ start + 3 ≤ stop ↔
      ∃ length, ⟨start, stop, .escape length⟩ ∈ placesFrom 0 pieces := by
  constructor
  · rintro ⟨⟨before, length, after, hsource, rfl, rfl, hbefore, hafter⟩, hlength⟩
    rw [String.toList_ofList, List.append_assoc] at hsource
    obtain ⟨first, others, hpieces, rfl⟩ :=
      Piece.exists_escape_of_run h hsource (by omega) hbefore hafter
    refine ⟨length, mem_placesFrom_iff.2 ⟨first, others, hpieces, ?_, ?_⟩⟩
    · rw [Nat.zero_add]
    · rw [Piece.print, Text.size_replicate_open]
  · rintro ⟨length, hplace⟩
    obtain ⟨first, others, hpieces, hstart, hstop⟩ := mem_placesFrom_iff.1 hplace
    dsimp only at hpieces hstart hstop
    rw [Piece.print, Text.size_replicate_open] at hstop
    rw [hpieces] at h
    have hescape := Piece.normal_of_append h
    have hlength : 3 ≤ length := (Piece.normal_cons.1 hescape).1
    obtain ⟨k, rfl⟩ : ∃ k, length = k + 3 := Nat.exists_eq_add_of_le' hlength
    refine ⟨⟨printAll first, k + 3, printAll others, ?_, ?_, hstop.symm, ?_, ?_⟩, by omega⟩
    · rw [String.toList_ofList, hpieces, Piece.printAll_append, List.append_assoc]
      rfl
    · rw [hstart, Nat.zero_add]
    · exact fun hlast => Piece.border_printAll h ⟨hlast, rfl⟩
    · exact Piece.endsBefore_printAll hescape

end TagTemplate
