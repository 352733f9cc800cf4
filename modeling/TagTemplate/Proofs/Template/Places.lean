import TagTemplate.Proofs.Template.Normal
import TagTemplate.Proofs.Template.Tags
import TagTemplate.Proofs.Template.Walk

/-!
# Where the pieces of a template stand

The pieces of a template that can be scanned stand in a row, each between two byte offsets. The tags
of the template are those of its pieces at their places, and what is rendered is the values of the
pieces one after the other.
-/
namespace TagTemplate

open Piece (Normal printAll segmentsFrom)

structure Place where
  start : Nat
  stop : Nat
  piece : Piece

def placesFrom (offset : Nat) : List Piece → List Place
  | [] => []
  | piece :: pieces =>
    let stop := offset + Text.size piece.print
    ⟨offset, stop, piece⟩ :: placesFrom stop pieces

def Piece.name? : Piece → Option String
  | literal _ => none
  | escape _ => none
  | tag _ name _ => some (String.ofList name)

def Piece.value {M : Type u} [Model M] (model : M) : Piece → String
  | literal text => String.ofList text
  | escape _ => "\x7b"
  | tag _ name _ => (Model.lookup model (String.ofList name)).getD ""

def Place.tag? (place : Place) : Option Tag :=
  place.piece.name?.map fun name => ⟨name, place.start, place.stop⟩

def tagsFrom (offset : Nat) (pieces : List Piece) : List Tag :=
  (placesFrom offset pieces).filterMap Place.tag?

def Place.Apart (a b : Place) : Prop := a.stop ≤ b.start ∨ b.stop ≤ a.start

instance : Std.Symm Place.Apart := ⟨fun _ _ => Or.symm⟩

section Places

variable {offset : Nat} {pieces : List Piece} {place : Place}

theorem placesFrom_cons (offset : Nat) (piece : Piece) (pieces : List Piece) :
    placesFrom offset (piece :: pieces) =
      ⟨offset, offset + Text.size piece.print, piece⟩ ::
        placesFrom (offset + Text.size piece.print) pieces := rfl

theorem le_start_of_mem_placesFrom (h : place ∈ placesFrom offset pieces) :
    offset ≤ place.start := by
  induction pieces generalizing offset with
  | nil => exact absurd h List.not_mem_nil
  | cons piece pieces ih =>
    rcases List.mem_cons.1 h with rfl | hrest
    · exact Nat.le_refl offset
    · exact Nat.le_of_add_right_le (ih hrest)

/-- The places are those before which some of the pieces are printed. -/
theorem mem_placesFrom_iff : place ∈ placesFrom offset pieces ↔
    ∃ before after, pieces = before ++ place.piece :: after ∧
      place.start = offset + Text.size (printAll before) ∧
      place.stop = place.start + Text.size place.piece.print := by
  induction pieces generalizing offset with
  | nil => simp [placesFrom]
  | cons piece pieces ih =>
    rw [placesFrom_cons, List.mem_cons, ih]
    constructor
    · rintro (rfl | ⟨before, after, rfl, hstart, hstop⟩)
      · exact ⟨[], pieces, rfl, rfl, rfl⟩
      · refine ⟨piece :: before, after, rfl, ?_, hstop⟩
        rw [hstart, Piece.printAll_cons, Text.size_append, Nat.add_assoc]
    · rintro ⟨before, after, heq, hstart, hstop⟩
      cases before with
      | nil =>
        obtain ⟨start, stop, piece⟩ := place
        obtain ⟨rfl, rfl⟩ := List.cons.inj heq
        obtain rfl : start = offset := hstart
        obtain rfl : stop = start + Text.size piece.print := hstop
        exact .inl rfl
      | cons first before =>
        obtain ⟨rfl, rfl⟩ := List.cons.inj heq
        refine .inr ⟨before, after, rfl, ?_, hstop⟩
        rw [hstart, Piece.printAll_cons, Text.size_append, Nat.add_assoc]

theorem pairwise_placesFrom (offset : Nat) (pieces : List Piece) :
    (placesFrom offset pieces).Pairwise fun a b => a.stop ≤ b.start := by
  induction pieces generalizing offset with
  | nil => exact .nil
  | cons piece pieces ih => exact .cons (fun place => le_start_of_mem_placesFrom) (ih _)

theorem start_lt_stop_of_mem_placesFrom (hwf : ∀ piece ∈ pieces, piece.WellFormed)
    (h : place ∈ placesFrom offset pieces) : place.start < place.stop := by
  obtain ⟨before, after, hpieces, -, hstop⟩ := mem_placesFrom_iff.1 h
  have hpos := Text.size_print_pos (hwf place.piece (by simp [hpieces]))
  omega

/-- Two places that are not the same are apart. -/
theorem eq_or_apart {other : Place} (h : place ∈ placesFrom offset pieces)
    (hother : other ∈ placesFrom offset pieces) : place = other ∨ place.Apart other := by
  by_cases heq : place = other
  · exact .inl heq
  · have hapart : (placesFrom offset pieces).Pairwise Place.Apart :=
      (pairwise_placesFrom offset pieces).imp .inl
    exact .inr (hapart.forall h hother heq)

end Places

section Tags

variable {offset : Nat} {pieces : List Piece}

theorem mem_tagsFrom_iff {tag : Tag} : tag ∈ tagsFrom offset pieces ↔
    ∃ left name right, ⟨tag.start, tag.stop, .tag left name right⟩ ∈ placesFrom offset pieces ∧
      tag.name = String.ofList name := by
  rw [tagsFrom, List.mem_filterMap]
  constructor
  · rintro ⟨⟨start, stop, piece⟩, hplace, hsome⟩
    obtain ⟨name, hname, rfl⟩ := Option.map_eq_some_iff.1 hsome
    cases piece with
    | literal text => cases hname
    | escape length => cases hname
    | tag left name right => exact ⟨left, name, right, hplace, (Option.some.inj hname).symm⟩
  · rintro ⟨left, name, right, hplace, hname⟩
    obtain ⟨name', start, stop⟩ := tag
    exact ⟨_, hplace, congrArg (fun name => some (Tag.mk name start stop)) hname.symm⟩

theorem pairwise_tagsFrom (offset : Nat) (pieces : List Piece) :
    (tagsFrom offset pieces).Pairwise fun a b => a.stop ≤ b.start := by
  refine (pairwise_placesFrom offset pieces).filterMap _ ?_
  intro a b hab tag htag other hother
  obtain ⟨name, -, rfl⟩ := Option.map_eq_some_iff.1 htag
  obtain ⟨name', -, rfl⟩ := Option.map_eq_some_iff.1 hother
  exact hab

theorem map_name_tagsFrom (offset : Nat) (pieces : List Piece) :
    (tagsFrom offset pieces).map Tag.name = pieces.filterMap Piece.name? := by
  induction pieces generalizing offset with
  | nil => rfl
  | cons piece pieces ih =>
    cases piece with
    | literal text => exact ih _
    | escape length => exact ih _
    | tag left name right => exact congrArg (String.ofList name :: ·) (ih _)

theorem collectTags_segmentsFrom (offset : Nat) (pieces : List Piece) :
    collectTags ((segmentsFrom offset pieces).map .ok) = .ok (tagsFrom offset pieces) := by
  induction pieces generalizing offset with
  | nil => rfl
  | cons piece pieces ih =>
    rw [Piece.segmentsFrom_cons, List.map_cons]
    cases piece with
    | literal text => exact ih _
    | escape length => exact ih _
    | tag left name right =>
      rw [Piece.segment, collectTags, ih]
      rfl

theorem placeholders_printAll (h : Normal pieces) :
    placeholders (String.ofList (printAll pieces)) = .ok (tagsFrom 0 pieces) := by
  rw [placeholders, scan_eq_resultsFrom, String.toList_ofList, resultsFrom_printAll _ _ h,
    collectTags_segmentsFrom]

theorem forall_ok_of_collectTags {results : List (Except RenderError Segment)} {tags : List Tag}
    (h : collectTags results = .ok tags) :
    ∀ result ∈ results, ∃ segment, result = .ok segment := by
  induction results generalizing tags with
  | nil => exact fun result hresult => absurd hresult List.not_mem_nil
  | cons result results ih =>
    match result with
    | .error e => cases h
    | .ok (.text content) => exact List.forall_mem_cons.2 ⟨⟨_, rfl⟩, ih h⟩
    | .ok (.tag tag) =>
      obtain ⟨tags, htags, -⟩ := Result.map_eq_ok_iff.1 h
      exact List.forall_mem_cons.2 ⟨⟨_, rfl⟩, ih htags⟩

/-- A template whose tags can be told is what a normal sequence prints. -/
theorem exists_normal_of_placeholders {template : String} {tags : List Tag}
    (h : placeholders template = .ok tags) :
    ∃ pieces, Normal pieces ∧ template = String.ofList (printAll pieces) ∧
      tags = tagsFrom 0 pieces := by
  obtain ⟨pieces, hnormal, hprint⟩ := exists_normal_of_forall_ok (forall_ok_of_collectTags h)
  have htemplate : template = String.ofList (printAll pieces) := by
    rw [hprint, String.ofList_toList]
  refine ⟨pieces, hnormal, htemplate, ?_⟩
  rw [htemplate, placeholders_printAll hnormal] at h
  exact (Except.ok.inj h).symm

end Tags

section Render

variable {M : Type u} [Model M] {model : M} {pieces : List Piece}

theorem Piece.output_eq_value {piece : Piece} (position : Position)
    (h : ∀ name ∈ piece.name?, Model.Binds model name) :
    piece.output model position = .ok (piece.value model) := by
  cases piece with
  | literal text => rfl
  | escape length => rfl
  | tag left name right =>
    obtain ⟨text, htext⟩ := h _ rfl
    rw [output, value, htext]
    rfl

/-- If all names have values, what is rendered is the values of the pieces. -/
theorem render_printAll (h : Normal pieces)
    (hbound : ∀ name ∈ pieces.filterMap Piece.name?, Model.Binds model name) :
    render model (String.ofList (printAll pieces)) =
      .ok (String.join (pieces.map (Piece.value model))) := by
  rw [render, scan_eq_resultsFrom, join_fill_resultsFrom, String.toList_ofList]
  generalize String.ofList (printAll pieces) = source, 0 = offset
  induction pieces generalizing offset with
  | nil => exact walk_nil model source offset
  | cons piece pieces ih =>
    obtain ⟨hwf, -, hnormal⟩ := Piece.normal_cons.1 h
    have hborder := Piece.border_of_endsBefore hwf (Piece.endsBefore_printAll h)
    have hpiece : ∀ name ∈ piece.name?, Model.Binds model name := fun name hname =>
      hbound name (List.mem_filterMap.2 ⟨piece, List.mem_cons_self, hname⟩)
    have hrest : ∀ name ∈ pieces.filterMap Piece.name?, Model.Binds model name := by
      intro name hname
      obtain ⟨other, hother, hsome⟩ := List.mem_filterMap.1 hname
      exact hbound name (List.mem_filterMap.2 ⟨other, List.mem_cons_of_mem _ hother, hsome⟩)
    rw [Piece.printAll_cons, walk_piece model source offset hwf hborder,
      Piece.output_eq_value _ hpiece, Result.bind_ok, ih hnormal hrest, Result.map_ok,
      List.map_cons, String.join_cons]

theorem forall_binds_name?_iff (offset : Nat) (pieces : List Piece) :
    (∀ name ∈ pieces.filterMap Piece.name?, Model.Binds model name) ↔
      ∀ tag ∈ tagsFrom offset pieces, Model.Binds model tag.name := by
  rw [← map_name_tagsFrom offset, List.forall_mem_map]

section UnknownTag

variable {template : String} {tags before after : List Tag} {tag : Tag}

/-- Of the tags of a template the first one without a value is reported. -/
theorem render_eq_unknownTag
    (h : placeholders template = .ok (before ++ tag :: after))
    (hbefore : ∀ t ∈ before, Model.Binds model t.name) (htag : ¬Model.Binds model tag.name) :
    render model template = .error (.unknownTag tag.name (.locate template tag.start)) := by
  rw [render, fill_eq_error_of_unbound (leadingTags_of_collectTags h) hbefore htag,
    Result.map_error]

theorem exists_unknownTag_of_placeholders (h : placeholders template = .ok tags)
    (hunbound : ¬∀ tag ∈ tags, Model.Binds model tag.name) :
    ∃ before tag after, tags = before ++ tag :: after ∧
      (∀ t ∈ before, Model.Binds model t.name) ∧ ¬Model.Binds model tag.name ∧
      render model template = .error (.unknownTag tag.name (.locate template tag.start)) := by
  have hleading : leadingTags (scan template) = tags := leadingTags_of_collectTags h
  rw [← hleading] at hunbound
  obtain ⟨before, tag, after, hsplit, hbefore, ⟨-, htag, -⟩, hrender⟩ :=
    exists_render_eq_unknownTag hunbound
  exact ⟨before, tag, after, hleading.symm.trans hsplit, hbefore, htag, hrender⟩

end UnknownTag

end Render

end TagTemplate
