import TagTemplate.Proofs.Template.Tags
import TagTemplate.Proofs.Template.Walk

/-!
# Rendered texts

A text without two opening braces in a row is rendered as it is. Rendering gives such a text as long
as no value brings such braces along or ends in one that the next text could complete: escapes are
collapsed for good, and what stands on both sides of a value without characters does not meet in a
pair either.
-/
namespace TagTemplate

open Piece (PairFree)

variable {M : Type u} [Model M] {model : M}

def IsSubstituted (model : M) (template value : String) : Prop :=
  ∃ tags tag, placeholders template = .ok tags ∧ tag ∈ tags ∧
    Model.lookup model tag.name = some value

/-- A text that has no pair of opening braces, and gets none from what follows it. -/
def IsSettled (text : List Char) : Prop := PairFree '{' text ∧ text.getLast? ≠ some '{'

theorem isSettled_of_notMem {text : List Char} (h : '{' ∉ text) : IsSettled text :=
  ⟨Piece.pairFree_of_notMem h, fun hlast => h (List.mem_of_getLast? hlast)⟩

theorem walk_of_pairFree {text : List Char} (source : String) (offset : Nat)
    (h : PairFree '{' text) : walk model source offset text = .ok (String.ofList text) := by
  have hborder : ¬(text.getLast? = some '{' ∧ ([] : List Char).head? = some '{') := by simp
  have hwalk := walk_literal model source offset h hborder
  rw [List.append_nil, walk_nil, Result.map_ok, String.append_empty] at hwalk
  exact hwalk

theorem render_of_pairFree {text : String} (h : PairFree '{' text.toList) :
    render model text = .ok text := by
  rw [render, scan_eq_resultsFrom, join_fill_resultsFrom, walk_of_pairFree text 0 h,
    String.ofList_toList]

/-- The output has no pair, and begins with a brace only if the text does. -/
theorem pairFree_of_walk {source : String} {offset : Nat} {text : List Char} {out : String}
    (h : walk model source offset text = .ok out)
    (hvalues : ∀ tag ∈ leadingTags (resultsFrom source offset text), ∀ value,
      Model.lookup model tag.name = some value → IsSettled value.toList) :
    PairFree '{' out.toList ∧ (text.head? ≠ some '{' → out.toList.head? ≠ some '{') := by
  induction text using Piece.text_induction generalizing offset out with
  | nil =>
    rw [walk_nil] at h
    rw [← Except.ok.inj h]
    simp
  | fault fault text hfault => simp [walk_fault model source offset hfault] at h
  | piece piece rest hwf hends ih =>
    have hborder := Piece.border_of_endsBefore hwf hends
    rw [walk_piece model source offset hwf hborder] at h
    rw [resultsFrom_piece hwf hends] at hvalues
    obtain ⟨value, hvalue, h⟩ := Result.bind_eq_ok_iff.1 h
    obtain ⟨more, hmore, rfl⟩ := Result.map_eq_ok_iff.1 h
    rw [String.toList_append, Piece.pairFree_append]
    cases piece with
    | literal text =>
      obtain ⟨hfree, hhead⟩ := ih hmore hvalues
      rw [← Except.ok.inj hvalue, String.toList_ofList]
      refine ⟨⟨hwf.2, hfree, fun hmeet => ?_⟩, fun htext => ?_⟩
      · exact hhead (fun hrest => hborder ⟨hmeet.1, hrest⟩) hmeet.2
      · obtain ⟨c, text, rfl⟩ := List.exists_cons_of_ne_nil hwf.1
        exact htext
    | escape length =>
      obtain ⟨hfree, hhead⟩ := ih hmore hvalues
      rw [← Except.ok.inj hvalue]
      refine ⟨⟨by decide, hfree, fun hmeet => hhead hends hmeet.2⟩, fun htext => ?_⟩
      obtain ⟨k, rfl⟩ : ∃ k, length = k + 3 := Nat.exists_eq_add_of_le' hwf
      exact absurd rfl htext
    | tag left name right =>
      rw [Piece.segment, leadingTags, List.forall_mem_cons] at hvalues
      obtain ⟨hfree, -⟩ := ih hmore hvalues.2
      have hlookup : Model.lookup model (String.ofList name) = some value := by
        rw [Piece.output] at hvalue
        split at hvalue
        · cases hvalue
        · rename_i heq
          rw [heq, Except.ok.inj hvalue]
      obtain ⟨hsettled, hlast⟩ := hvalues.1 value hlookup
      exact ⟨⟨hsettled, hfree, fun hmeet => hlast hmeet.1⟩, fun htext => absurd rfl htext⟩

theorem pairFree_of_render {template out : String} (h : render model template = .ok out)
    (hvalues : ∀ value, IsSubstituted model template value → IsSettled value.toList) :
    PairFree '{' out.toList := by
  obtain ⟨tags, htags⟩ := exists_placeholders_eq_ok h
  have hleading : leadingTags (scan template) = tags := leadingTags_of_collectTags htags
  rw [render, scan_eq_resultsFrom, join_fill_resultsFrom] at h
  refine (pairFree_of_walk h ?_).1
  rw [← scan_eq_resultsFrom, hleading]
  exact fun tag htag value hvalue => hvalues value ⟨tags, tag, htags, htag, hvalue⟩

/-- One pass leaves nothing to expand. -/
theorem render_render {N : Type v} [Model N] (model : M) (other : N) (template : String) :
    (∀ out, render model template = .ok out →
      (∀ value, IsSubstituted model template value →
        PairFree '{' value.toList ∧ value.toList.getLast? ≠ some '{') →
      PairFree '{' out.toList ∧ render other out = .ok out ∧ render model out = .ok out) ∧
    (placeholders template = .ok [] ∨
        (∀ value, IsSubstituted model template value → '{' ∉ value.toList) →
      ∀ value, IsSubstituted model template value →
        PairFree '{' value.toList ∧ value.toList.getLast? ≠ some '{') ∧
    (PairFree '{' template.toList → render model template = .ok template) := by
  refine ⟨fun out h hvalues => ?_, fun hcase value hvalue => ?_, render_of_pairFree⟩
  · have hfree := pairFree_of_render h hvalues
    exact ⟨hfree, render_of_pairFree hfree, render_of_pairFree hfree⟩
  · rcases hcase with hnone | hbrace
    · obtain ⟨tags, tag, htags, htag, -⟩ := hvalue
      rw [hnone] at htags
      rw [← Except.ok.inj htags] at htag
      exact absurd htag List.not_mem_nil
    · exact isSettled_of_notMem (hbrace value hvalue)

theorem render_render_sample :
    render (Table.ofList [("a", ""), ("b", "\x7b\x7d")])
        "\x7b\x7b\x7b\x7b.\x7b\x7ba\x7d\x7d\x7b\x7bb\x7d\x7d" = .ok "\x7b.\x7b\x7d" ∧
      render (Table.empty : Table String) "\x7b.\x7b\x7d" = .ok "\x7b.\x7b\x7d" := by
  have hrender : render (Table.ofList [("a", ""), ("b", "\x7b\x7d")])
      "\x7b\x7b\x7b\x7b.\x7b\x7ba\x7d\x7d\x7b\x7bb\x7d\x7d" = .ok "\x7b.\x7b\x7d" := by
    decide +kernel
  have hscan : placeholders "\x7b\x7b\x7b\x7b.\x7b\x7ba\x7d\x7d\x7b\x7bb\x7d\x7d" =
      .ok [⟨"a", 5, 10⟩, ⟨"b", 10, 15⟩] := by decide +kernel
  refine ⟨hrender, ((render_render _ Table.empty _).1 _ hrender ?_).2.1⟩
  rintro value ⟨tags, tag, htags, htag, hvalue⟩
  rw [hscan] at htags
  rw [← Except.ok.inj htags, List.mem_cons, List.mem_singleton] at htag
  rcases htag with rfl | rfl
  · rw [← Option.some.inj ((by decide : some "" = _).trans hvalue)]
    decide
  · rw [← Option.some.inj ((by decide : some "\x7b\x7d" = _).trans hvalue)]
    decide

end TagTemplate
