import TagTemplate.Proofs.Template.Places
import TagTemplate.Proofs.Text.Splice

/-!
# Replacing the pieces of a template

A template is changed by putting texts in the places of some of its pieces. If these texts are what
other pieces print, the changed template is what the pieces print with the other ones among them.
-/
namespace TagTemplate

open Piece (printAll)

def Place.change? (replacement? : Piece → Option String) (place : Place) : Option Text.Change :=
  (replacement? place.piece).map fun text => ⟨place.start, place.stop, text⟩

def changesFrom (replacement? : Piece → Option String) (offset : Nat) (pieces : List Piece) :
    List Text.Change :=
  (placesFrom offset pieces).filterMap (Place.change? replacement?)

section Changes

variable (replacement? : Piece → Option String) (offset : Nat) (pieces : List Piece)

theorem mem_changesFrom_iff {change : Text.Change} :
    change ∈ changesFrom replacement? offset pieces ↔
      ∃ piece, ⟨change.start, change.stop, piece⟩ ∈ placesFrom offset pieces ∧
        replacement? piece = some change.text := by
  rw [changesFrom, List.mem_filterMap]
  constructor
  · rintro ⟨place, hplace, hsome⟩
    obtain ⟨text, htext, rfl⟩ := Option.map_eq_some_iff.1 hsome
    exact ⟨place.piece, hplace, htext⟩
  · rintro ⟨piece, hplace, htext⟩
    exact ⟨_, hplace, Option.map_eq_some_iff.2 ⟨change.text, htext, rfl⟩⟩

theorem inOrder_changesFrom : Text.InOrder (changesFrom replacement? offset pieces) := by
  refine (pairwise_placesFrom offset pieces).filterMap _ ?_
  intro a b hab change hchange other hother
  obtain ⟨text, -, rfl⟩ := Option.map_eq_some_iff.1 hchange
  obtain ⟨text', -, rfl⟩ := Option.map_eq_some_iff.1 hother
  exact hab

theorem Text.Part.changes_map :
    changes offset (pieces.map fun piece => ⟨piece.print, replacement? piece⟩) =
      changesFrom replacement? offset pieces := by
  induction pieces generalizing offset with
  | nil => rfl
  | cons piece pieces ih =>
    rw [List.map_cons, changesFrom, placesFrom_cons, List.filterMap_cons, Place.change?]
    dsimp only
    cases replacement? piece with
    | none => exact ih _
    | some text => exact congrArg (_ :: ·) (ih _)

/-- Making the changes puts the texts in the places of their pieces and keeps the others. -/
theorem splice?_changesFrom :
    Text.splice? (printAll pieces) 0 (changesFrom replacement? 0 pieces) =
      some (pieces.flatMap fun piece => Text.Part.result ⟨piece.print, replacement? piece⟩) := by
  have hsplice := Text.Part.splice?_changes
    (pieces.map fun piece => ⟨piece.print, replacement? piece⟩)
  rwa [List.flatMap_map, List.flatMap_map, Text.Part.changes_map] at hsplice

end Changes

def IsReplacement (R : Piece → Piece → Prop) (offset : Nat) (pieces : List Piece)
    (change : Text.Change) : Prop :=
  ∃ piece other, R piece other ∧ ⟨change.start, change.stop, piece⟩ ∈ placesFrom offset pieces ∧
    change.text = String.ofList other.print

/-- Changes that make other pieces of some of the pieces that stand in a row from a byte offset
on. -/
inductive Makes (R : Piece → Piece → Prop) :
    Nat → List Piece → List Text.Change → List Piece → Prop where
  | nil (offset : Nat) : Makes R offset [] [] []
  | keep {offset : Nat} {piece : Piece} {pieces others : List Piece} {changes : List Text.Change}
      (hself : R piece piece)
      (hrest : Makes R (offset + Text.size piece.print) pieces changes others) :
      Makes R offset (piece :: pieces) changes (piece :: others)
  | replace {offset : Nat} {piece other : Piece} {pieces others : List Piece}
      {changes : List Text.Change} (hR : R piece other)
      (hrest : Makes R (offset + Text.size piece.print) pieces changes others) :
      Makes R offset (piece :: pieces)
        (⟨offset, offset + Text.size piece.print, String.ofList other.print⟩ :: changes)
        (other :: others)

section Makes

variable {R : Piece → Piece → Prop} {offset : Nat} {pieces others : List Piece}
  {changes : List Text.Change}

theorem IsReplacement.start_lt_stop {change : Text.Change}
    (hwf : ∀ piece ∈ pieces, piece.WellFormed) (h : IsReplacement R offset pieces change) :
    offset ≤ change.start ∧ change.start < change.stop := by
  obtain ⟨piece, other, -, hplace, -⟩ := h
  exact ⟨le_start_of_mem_placesFrom hplace, start_lt_stop_of_mem_placesFrom hwf hplace⟩

theorem IsReplacement.of_lt {piece : Piece} {change : Text.Change}
    (h : IsReplacement R offset (piece :: pieces) change) (hlt : offset < change.start) :
    IsReplacement R (offset + Text.size piece.print) pieces change := by
  obtain ⟨piece', other, hR, hplace, htext⟩ := h
  rcases List.mem_cons.1 hplace with heq | hrest
  · exact absurd (congrArg Place.start heq) (Nat.ne_of_gt hlt)
  · exact ⟨piece', other, hR, hrest, htext⟩

theorem IsReplacement.exists_eq {piece : Piece} {change : Text.Change} (hwf : piece.WellFormed)
    (h : IsReplacement R offset (piece :: pieces) change) (hstart : change.start ≤ offset) :
    ∃ other, R piece other ∧
      change = ⟨offset, offset + Text.size piece.print, String.ofList other.print⟩ := by
  obtain ⟨start, stop, text⟩ := change
  obtain ⟨piece', other, hR, hplace, htext⟩ := h
  dsimp only at hplace htext hstart
  rcases List.mem_cons.1 hplace with heq | hrest
  · obtain ⟨hfirst, hlast, rfl⟩ := Place.mk.inj heq
    exact ⟨other, hR, by rw [hfirst, hlast, htext]⟩
  · have hle : offset + Text.size piece.print ≤ start := le_start_of_mem_placesFrom hrest
    have hpos := Text.size_print_pos hwf
    omega

/-- Changes that stand in order and replace single pieces make other pieces of some of them. -/
theorem exists_makes (hwf : ∀ piece ∈ pieces, piece.WellFormed)
    (hrefl : ∀ piece ∈ pieces, R piece piece) (horder : Text.InOrder changes)
    (h : ∀ change ∈ changes, IsReplacement R offset pieces change) :
    ∃ others, Makes R offset pieces changes others := by
  induction pieces generalizing offset changes with
  | nil =>
    have hnone : changes = [] := by
      rw [List.eq_nil_iff_forall_not_mem]
      intro change hchange
      obtain ⟨piece, other, -, hplace, -⟩ := h change hchange
      exact List.not_mem_nil hplace
    exact ⟨[], hnone ▸ .nil offset⟩
  | cons piece pieces ih =>
    obtain ⟨hpiece, hpieces⟩ := List.forall_mem_cons.1 hwf
    obtain ⟨hself, hselves⟩ := List.forall_mem_cons.1 hrefl
    -- Where all changes are later, the first piece is kept.
    have hkeep (hlater : ∀ change ∈ changes, offset < change.start) :
        ∃ others, Makes R offset (piece :: pieces) changes others := by
      obtain ⟨others, hmakes⟩ := ih hpieces hselves horder
        fun change hchange => (h change hchange).of_lt (hlater change hchange)
      exact ⟨piece :: others, .keep hself hmakes⟩
    cases changes with
    | nil => exact hkeep fun change hchange => absurd hchange List.not_mem_nil
    | cons change changes =>
      obtain ⟨hafter, hordered⟩ := List.pairwise_cons.1 horder
      obtain ⟨hfirst, hrest⟩ := List.forall_mem_cons.1 h
      obtain ⟨hle, hlt⟩ := hfirst.start_lt_stop hwf
      have hlater : ∀ other ∈ changes, offset < other.start := by
        intro other hother
        have hstop := hafter other hother
        omega
      by_cases hstart : offset < change.start
      · exact hkeep (List.forall_mem_cons.2 ⟨hstart, hlater⟩)
      · obtain ⟨other, hR, rfl⟩ := hfirst.exists_eq hpiece (Nat.le_of_not_lt hstart)
        obtain ⟨others, hmakes⟩ := ih hpieces hselves hordered
          fun change hchange => (hrest change hchange).of_lt (hlater change hchange)
        exact ⟨other :: others, .replace hR hmakes⟩

theorem Makes.forall₂ (h : Makes R offset pieces changes others) : List.Forall₂ R pieces others := by
  induction h with
  | nil offset => exact .nil
  | keep hself _ ih => exact .cons hself ih
  | replace hR _ ih => exact .cons hR ih

theorem Makes.exists_parts (h : Makes R offset pieces changes others) :
    ∃ parts, changes = Text.Part.changes offset parts ∧
      parts.flatMap Text.Part.text = printAll pieces ∧
      parts.flatMap Text.Part.result = printAll others := by
  induction h with
  | nil offset => exact ⟨[], rfl, rfl, rfl⟩
  | @keep _ piece _ _ _ _ _ ih =>
    obtain ⟨parts, rfl, htext, hresult⟩ := ih
    refine ⟨⟨piece.print, none⟩ :: parts, rfl, ?_, ?_⟩
    · rw [List.flatMap_cons, htext, Piece.printAll_cons]
    · rw [List.flatMap_cons, hresult, Text.Part.result_none, Piece.printAll_cons]
  | @replace _ piece other _ _ _ _ _ ih =>
    obtain ⟨parts, rfl, htext, hresult⟩ := ih
    refine ⟨⟨piece.print, some (String.ofList other.print)⟩ :: parts, rfl, ?_, ?_⟩
    · rw [List.flatMap_cons, htext, Piece.printAll_cons]
    · rw [List.flatMap_cons, hresult, Text.Part.result_some, String.toList_ofList,
        Piece.printAll_cons]

theorem Makes.splice? (h : Makes R 0 pieces changes others) :
    Text.splice? (printAll pieces) 0 changes = some (printAll others) := by
  obtain ⟨parts, rfl, htext, hresult⟩ := h.exists_parts
  rw [← htext, ← hresult, Text.Part.splice?_changes]

end Makes

end TagTemplate
