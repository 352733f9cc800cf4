import Mathlib.Data.List.Chain
import TagTemplate.Proofs.Result
import TagTemplate.Proofs.Template.Scan

/-!
# Templates as sequences of pieces

A sequence of pieces is normal if each of its pieces can be read back and no two neighbours run
together where they meet. Scanning undoes printing on normal sequences, and every template that is
scanned without an error is what just one normal sequence prints.
-/
namespace TagTemplate
namespace Piece

def MayPrecede : Piece → Piece → Prop
  | literal _, literal _ => False
  | literal text, _ => text.getLast? ≠ some '{'
  | escape _, literal text => text.head? ≠ some '{'
  | escape _, _ => False
  | tag .., _ => True

instance : DecidableRel MayPrecede
  | literal _, literal _ => inferInstanceAs (Decidable False)
  | literal text, escape _ => inferInstanceAs (Decidable (text.getLast? ≠ some '{'))
  | literal text, tag .. => inferInstanceAs (Decidable (text.getLast? ≠ some '{'))
  | escape _, literal text => inferInstanceAs (Decidable (text.head? ≠ some '{'))
  | escape _, escape _ => inferInstanceAs (Decidable False)
  | escape _, tag .. => inferInstanceAs (Decidable False)
  | tag .., _ => inferInstanceAs (Decidable True)

/-- A sequence of pieces that do not run together. -/
def Normal (pieces : List Piece) : Prop :=
  (∀ piece ∈ pieces, piece.WellFormed) ∧ pieces.IsChain MayPrecede

instance (pieces : List Piece) : Decidable (Normal pieces) :=
  inferInstanceAs (Decidable ((∀ piece ∈ pieces, piece.WellFormed) ∧ pieces.IsChain MayPrecede))

def printAll (pieces : List Piece) : List Char := pieces.flatMap print

def segmentsFrom (offset : Nat) : List Piece → List Segment
  | [] => []
  | literal text :: pieces =>
    .text (String.ofList text) :: segmentsFrom (offset + Text.size text) pieces
  | escape length :: pieces => .text "\x7b" :: segmentsFrom (offset + length) pieces
  | tag left name right :: pieces =>
    let stop := offset + Text.size (tag left name right).print
    .tag ⟨String.ofList name, offset, stop⟩ :: segmentsFrom stop pieces

variable {piece : Piece} {pieces : List Piece} {rest : List Char}

@[simp] theorem printAll_nil : printAll [] = [] := rfl

@[simp] theorem printAll_cons (piece : Piece) (pieces : List Piece) :
    printAll (piece :: pieces) = piece.print ++ printAll pieces := rfl

theorem printAll_append (a b : List Piece) : printAll (a ++ b) = printAll a ++ printAll b :=
  List.flatMap_append

theorem segmentsFrom_cons (offset : Nat) (piece : Piece) (pieces : List Piece) :
    segmentsFrom offset (piece :: pieces) =
      piece.segment offset :: segmentsFrom (offset + Text.size piece.print) pieces := by
  cases piece with
  | literal text => rfl
  | escape length => rw [segmentsFrom, print, Text.size_replicate_open]; rfl
  | tag left name right => rfl

theorem normal_nil : Normal [] := ⟨by simp, .nil⟩

theorem normal_cons :
    Normal (piece :: pieces) ↔
      piece.WellFormed ∧ (∀ next ∈ pieces.head?, piece.MayPrecede next) ∧ Normal pieces := by
  rw [Normal, Normal, List.forall_mem_cons, List.isChain_cons]
  tauto

theorem normal_of_append {a b : List Piece} (h : Normal (a ++ b)) : Normal b := by
  induction a with
  | nil => exact h
  | cons piece a ih => exact ih (normal_cons.1 h).2.2

theorem print_eq_open_of_not_literal (hwf : piece.WellFormed) (h : ∀ text, piece ≠ literal text) :
    ∃ after, piece.print = '{' :: '{' :: after := by
  cases piece with
  | literal text => exact absurd rfl (h text)
  | escape length =>
    obtain ⟨k, rfl⟩ : ∃ k, length = k + 3 := Nat.exists_eq_add_of_le' hwf
    exact ⟨List.replicate (k + 1) '{', by simp [print, List.replicate_succ]⟩
  | tag left name right => exact ⟨_, rfl⟩

theorem not_open_of_literal {text after : List Char} (hwf : (literal text).WellFormed)
    (hends : (literal text).EndsBefore rest) : text ++ rest ≠ '{' :: '{' :: after := by
  intro heq
  have hborder := border_of_endsBefore hwf hends
  obtain ⟨hne, hfree⟩ := hwf
  match text, hne with
  | [c], _ =>
    simp only [List.cons_append, List.nil_append, List.cons.injEq] at heq
    exact hborder (by simp [print, heq.1, heq.2])
  | c :: d :: text, _ =>
    simp only [List.cons_append, List.cons.injEq] at heq
    exact (pairFree_cons.1 hfree).1 (by simp [heq.1, heq.2.1])

/-- Where one piece meets the next it ends just if it may precede it. -/
theorem mayPrecede_iff {next : Piece} (hwf : next.WellFormed) (hends : next.EndsBefore rest) :
    piece.MayPrecede next ↔ piece.EndsBefore (next.print ++ rest) := by
  by_cases hnext : ∃ text, next = literal text
  · obtain ⟨text, rfl⟩ := hnext
    have hne : text ≠ [] := hwf.1
    cases piece with
    | literal text' =>
      refine ⟨False.elim, ?_⟩
      rintro (hnil | ⟨-, after, heq⟩)
      · exact hne (List.append_eq_nil_iff.1 hnil).1
      · exact not_open_of_literal hwf hends heq
    | escape length =>
      cases text with
      | nil => exact absurd rfl hne
      | cons c text => rfl
    | tag left name right => exact Iff.rfl
  · obtain ⟨after, hprint⟩ := print_eq_open_of_not_literal hwf fun text h => hnext ⟨text, h⟩
    cases piece with
    | literal text =>
      have hpre : (literal text).MayPrecede next ↔ text.getLast? ≠ some '{' := by
        cases next with
        | literal text' => exact absurd ⟨text', rfl⟩ hnext
        | escape length => rfl
        | tag left name right => rfl
      simp [hpre, EndsBefore, hprint]
    | escape length =>
      have hpre : ¬(escape length).MayPrecede next := by
        cases next with
        | literal text' => exact absurd ⟨text', rfl⟩ hnext
        | escape length => exact id
        | tag left name right => exact id
      simp [hpre, EndsBefore, hprint]
    | tag left name right => exact Iff.rfl

/-- The first piece of a normal sequence ends where the others begin. -/
theorem endsBefore_printAll (h : Normal (piece :: pieces)) :
    piece.EndsBefore (printAll pieces) := by
  induction pieces generalizing piece with
  | nil =>
    cases piece with
    | literal text => exact .inl rfl
    | escape length => simp [EndsBefore]
    | tag left name right => trivial
  | cons next pieces ih =>
    obtain ⟨-, hnext, hnormal⟩ := normal_cons.1 h
    exact (mayPrecede_iff (normal_cons.1 hnormal).1 (ih hnormal)).1 (hnext next rfl)

/-- A piece that ends where a normal sequence begins makes it a longer one. -/
theorem normal_cons_of_endsBefore (hwf : piece.WellFormed)
    (hends : piece.EndsBefore (printAll pieces)) (h : Normal pieces) :
    Normal (piece :: pieces) := by
  refine normal_cons.2 ⟨hwf, ?_, h⟩
  intro next hnext
  cases pieces with
  | nil => simp at hnext
  | cons next' pieces =>
    simp only [List.head?_cons, Option.mem_def, Option.some.injEq] at hnext
    subst hnext
    exact (mayPrecede_iff (normal_cons.1 h).1 (endsBefore_printAll h)).2 hends

/-- What a normal sequence prints tells the sequence. -/
theorem printAll_injective {others : List Piece} (h : Normal pieces) (h' : Normal others)
    (heq : printAll pieces = printAll others) : pieces = others := by
  induction pieces generalizing others with
  | nil =>
    cases others with
    | nil => rfl
    | cons other others =>
      have hne := print_ne_nil (normal_cons.1 h').1
      simp [hne] at heq
  | cons piece pieces ih =>
    cases others with
    | nil =>
      have hne := print_ne_nil (normal_cons.1 h).1
      simp [hne] at heq
    | cons other others =>
      have hread := read_print_append (normal_cons.1 h).1 (endsBefore_printAll h)
      have hread' := read_print_append (normal_cons.1 h').1 (endsBefore_printAll h')
      rw [← printAll_cons, heq, printAll_cons, hread'] at hread
      simp only [Except.ok.injEq, Prod.mk.injEq] at hread
      obtain ⟨rfl, hrest⟩ := hread
      rw [ih (normal_cons.1 h).2.2 (normal_cons.1 h').2.2 hrest.symm]

end Piece

open Piece (Normal printAll segmentsFrom)

theorem resultsFrom_printAll (source : String) (offset : Nat) {pieces : List Piece}
    (h : Normal pieces) :
    resultsFrom source offset (printAll pieces) = (segmentsFrom offset pieces).map .ok := by
  induction pieces generalizing offset with
  | nil => simp [segmentsFrom]
  | cons piece pieces ih =>
    rw [Piece.printAll_cons, resultsFrom_piece (Piece.normal_cons.1 h).1
      (Piece.endsBefore_printAll h), ih _ (Piece.normal_cons.1 h).2.2, Piece.segmentsFrom_cons,
      List.map_cons]

theorem exists_normal_of_forall_ok {source : String} {offset : Nat} {text : List Char}
    (h : ∀ result ∈ resultsFrom source offset text, ∃ segment, result = .ok segment) :
    ∃ pieces, Normal pieces ∧ printAll pieces = text := by
  induction text using Piece.text_induction generalizing offset with
  | nil => exact ⟨[], Piece.normal_nil, rfl⟩
  | fault fault text hfault =>
    rw [resultsFrom_fault hfault] at h
    simp at h
  | piece piece rest hwf hends ih =>
    rw [resultsFrom_piece hwf hends, List.forall_mem_cons] at h
    obtain ⟨pieces, hnormal, rfl⟩ := ih h.2
    exact ⟨piece :: pieces, Piece.normal_cons_of_endsBefore hwf hends hnormal, rfl⟩

/-- Scanning undoes printing, and what it accepts is printed by one normal sequence alone. -/
theorem scan_printAll_and_existsUnique :
    (∀ pieces, Normal pieces →
      scan (String.ofList (printAll pieces)) = (segmentsFrom 0 pieces).map .ok) ∧
    ∀ template, (∀ result ∈ scan template, ∃ segment, result = .ok segment) →
      ∃! pieces, Normal pieces ∧ String.ofList (printAll pieces) = template := by
  constructor
  · intro pieces h
    rw [scan_eq_resultsFrom, String.toList_ofList, resultsFrom_printAll _ _ h]
  · intro template h
    rw [scan_eq_resultsFrom] at h
    obtain ⟨pieces, hnormal, hprint⟩ := exists_normal_of_forall_ok h
    refine ⟨pieces, ⟨hnormal, by rw [hprint, String.ofList_toList]⟩, ?_⟩
    rintro others ⟨hnormal', hprint'⟩
    apply Piece.printAll_injective hnormal' hnormal
    rw [hprint, ← hprint', String.toList_ofList]

theorem scan_printAll_and_existsUnique_sample :
    scan "é\x7b\x7b N\x7d\x7d\x7b\x7b\x7b\x7ba\x7b" =
        [.ok (.text "é"), .ok (.tag ⟨"N", 2, 8⟩), .ok (.text "\x7b"), .ok (.text "a\x7b")] ∧
      ∃! pieces, Normal pieces ∧
        String.ofList (printAll pieces) = "é\x7b\x7b N\x7d\x7d\x7b\x7b\x7b\x7ba\x7b" := by
  have hnormal :
      Normal [.literal ['é'], .tag [' '] ['N'] [], .escape 4, .literal ['a', '\x7b']] := by
    decide
  have hscan := scan_printAll_and_existsUnique.1 _ hnormal
  refine ⟨hscan, scan_printAll_and_existsUnique.2 _ ?_⟩
  intro result hresult
  obtain ⟨segment, -, rfl⟩ := List.mem_map.1 (hscan ▸ hresult)
  exact ⟨segment, rfl⟩

end TagTemplate
