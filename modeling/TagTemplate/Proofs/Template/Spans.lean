import TagTemplate.Proofs.Template.Replace
import TagTemplate.Proofs.Template.Runs

/-!
# Rendering by the spans of the tags

Who knows where the tags of a template stand can render it without reading it again: a value takes
the place of each tag, one brace that of each run of three or more, and every other byte is kept. No
tag meets a run, so these changes do not get in each other's way.
-/
namespace TagTemplate

open Piece (Normal printAll)

variable {M : Type u} [Model M]

/-- Whether a change puts the value of a tag in the place of the tag, or one opening brace in the
place of a maximal run of three or more. -/
def IsSubstitution (model : M) (source : String) (tags : List Tag) (change : Text.Change) : Prop :=
  (∃ tag ∈ tags, change.start = tag.start ∧ change.stop = tag.stop ∧
    Model.lookup model tag.name = some change.text) ∨
  IsRun source change.start change.stop ∧ change.start + 3 ≤ change.stop ∧ change.text = "\x7b"

def Piece.substitute? (model : M) : Piece → Option String
  | literal _ => none
  | escape _ => some "\x7b"
  | tag _ name _ => Model.lookup model (String.ofList name)

variable {model : M} {pieces : List Piece}

theorem result_substitute? {piece : Piece} (h : ∀ name ∈ piece.name?, Model.Binds model name) :
    Text.Part.result ⟨piece.print, piece.substitute? model⟩ = (piece.value model).toList := by
  cases piece with
  | literal text => exact String.toList_ofList.symm
  | escape length => rfl
  | tag left name right =>
    obtain ⟨text, htext⟩ := h _ rfl
    rw [Piece.substitute?, Piece.value, htext]
    rfl

/-- The changes of the pieces are those that the spans and the runs tell. -/
theorem mem_changesFrom_iff_isSubstitution (h : Normal pieces) {change : Text.Change} :
    change ∈ changesFrom (Piece.substitute? model) 0 pieces ↔
      IsSubstitution model (String.ofList (printAll pieces)) (tagsFrom 0 pieces) change := by
  rw [mem_changesFrom_iff]
  constructor
  · rintro ⟨piece, hplace, htext⟩
    cases piece with
    | literal text => cases htext
    | escape length =>
      obtain ⟨hrun, hlength⟩ := (isRun_iff h).2 ⟨length, hplace⟩
      exact .inr ⟨hrun, hlength, (Option.some.inj htext).symm⟩
    | tag left name right =>
      have htag : Tag.mk (String.ofList name) change.start change.stop ∈ tagsFrom 0 pieces :=
        mem_tagsFrom_iff.2 ⟨left, name, right, hplace, rfl⟩
      exact .inl ⟨_, htag, rfl, rfl, htext⟩
  · rintro (⟨tag, htag, hstart, hstop, hvalue⟩ | ⟨hrun, hlength, htext⟩)
    · obtain ⟨left, name, right, hplace, hname⟩ := mem_tagsFrom_iff.1 htag
      rw [← hstart, ← hstop] at hplace
      rw [hname] at hvalue
      exact ⟨_, hplace, hvalue⟩
    · obtain ⟨length, hplace⟩ := (isRun_iff h).1 ⟨hrun, hlength⟩
      exact ⟨_, hplace, congrArg some htext.symm⟩

/-- No tag meets a run of three or more opening braces. -/
theorem tag_apart_run (h : Normal pieces) {tag : Tag} (htag : tag ∈ tagsFrom 0 pieces)
    {start stop : Nat} (hrun : IsRun (String.ofList (printAll pieces)) start stop)
    (hlength : start + 3 ≤ stop) : tag.stop ≤ start ∨ stop ≤ tag.start := by
  obtain ⟨left, name, right, hplace, -⟩ := mem_tagsFrom_iff.1 htag
  obtain ⟨length, hescape⟩ := (isRun_iff h).1 ⟨hrun, hlength⟩
  rcases eq_or_apart hplace hescape with heq | hapart
  · cases (Place.mk.inj heq).2.2
  · exact hapart

/-- Making the changes gives the values of the pieces. -/
theorem splice?_substitutions
    (hbound : ∀ name ∈ pieces.filterMap Piece.name?, Model.Binds model name) :
    Text.splice? (printAll pieces) 0 (changesFrom (Piece.substitute? model) 0 pieces) =
      some (String.join (pieces.map (Piece.value model))).toList := by
  rw [splice?_changesFrom, String.toList_join, List.flatMap_map]
  congr 1
  apply List.flatMap_congr
  intro piece hpiece
  apply result_substitute?
  intro name hname
  exact hbound name (List.mem_filterMap.2 ⟨piece, hpiece, hname⟩)

/-- The spans of the tags stand in order, apart from each other and from every run of three or more
opening braces. If all tags have values, rendering gives the template with just the values and the
single braces put in; otherwise it reports the first tag without one. -/
theorem render_eq_splice (model : M) {template : String} {tags : List Tag}
    (h : placeholders template = .ok tags) :
    tags.Pairwise (fun a b => a.stop ≤ b.start) ∧
    (∀ tag ∈ tags, tag.start < tag.stop ∧ ∀ start stop, IsRun template start stop →
      start + 3 ≤ stop → tag.stop ≤ start ∨ stop ≤ tag.start) ∧
    ((∀ tag ∈ tags, Model.Binds model tag.name) →
      ∃ changes out, Text.InOrder changes ∧
        (∀ change, change ∈ changes ↔ IsSubstitution model template tags change) ∧
        Text.splice? template.toList 0 changes = some out.toList ∧
        render model template = .ok out) ∧
    (¬(∀ tag ∈ tags, Model.Binds model tag.name) →
      ∃ before tag after, tags = before ++ tag :: after ∧
        (∀ t ∈ before, Model.Binds model t.name) ∧ ¬Model.Binds model tag.name ∧
        render model template = .error (.unknownTag tag.name (.locate template tag.start))) := by
  obtain ⟨pieces, hnormal, rfl, rfl⟩ := exists_normal_of_placeholders h
  refine ⟨pairwise_tagsFrom 0 pieces, fun tag htag => ?_, fun hbound => ?_,
    exists_unknownTag_of_placeholders h⟩
  · obtain ⟨left, name, right, hplace, -⟩ := mem_tagsFrom_iff.1 htag
    exact ⟨start_lt_stop_of_mem_placesFrom hnormal.1 hplace, fun start stop =>
      tag_apart_run hnormal htag⟩
  · have hnames := (forall_binds_name?_iff 0 pieces).2 hbound
    refine ⟨_, _, inOrder_changesFrom (Piece.substitute? model) 0 pieces,
      fun change => mem_changesFrom_iff_isSubstitution hnormal, ?_,
      render_printAll hnormal hnames⟩
    rw [String.toList_ofList, splice?_substitutions hnames]

theorem render_eq_splice_sample :
    placeholders "é\x7b\x7b\x7b\x7bb\x7d\x7d\x7b\x7b a\x7d\x7d\x7b\x7bb\x7d\x7d" =
        .ok [⟨"a", 9, 15⟩, ⟨"b", 15, 20⟩] ∧
      (∃ changes out, Text.InOrder changes ∧
        (∀ change, change ∈ changes ↔ IsSubstitution (Table.ofList [("a", "ü"), ("b", "")])
          "é\x7b\x7b\x7b\x7bb\x7d\x7d\x7b\x7b a\x7d\x7d\x7b\x7bb\x7d\x7d"
          [⟨"a", 9, 15⟩, ⟨"b", 15, 20⟩] change) ∧
        Text.splice? "é\x7b\x7b\x7b\x7bb\x7d\x7d\x7b\x7b a\x7d\x7d\x7b\x7bb\x7d\x7d".toList 0
          changes = some out.toList ∧ out = "é\x7bb\x7d\x7dü") ∧
      ∃ tag ∈ [Tag.mk "a" 9 15, ⟨"b", 15, 20⟩],
        ¬Model.Binds (Table.ofList [("a", "ü")]) tag.name ∧
        render (Table.ofList [("a", "ü")])
          "é\x7b\x7b\x7b\x7bb\x7d\x7d\x7b\x7b a\x7d\x7d\x7b\x7bb\x7d\x7d" =
          .error (.unknownTag tag.name (.locate
            "é\x7b\x7b\x7b\x7bb\x7d\x7d\x7b\x7b a\x7d\x7d\x7b\x7bb\x7d\x7d" tag.start)) := by
  have hscan : placeholders "é\x7b\x7b\x7b\x7bb\x7d\x7d\x7b\x7b a\x7d\x7d\x7b\x7bb\x7d\x7d" =
      .ok [⟨"a", 9, 15⟩, ⟨"b", 15, 20⟩] := by decide +kernel
  have hrender : render (Table.ofList [("a", "ü"), ("b", "")])
      "é\x7b\x7b\x7b\x7bb\x7d\x7d\x7b\x7b a\x7d\x7d\x7b\x7bb\x7d\x7d" = .ok "é\x7bb\x7d\x7dü" := by
    decide +kernel
  refine ⟨hscan, ?_, ?_⟩
  · obtain ⟨changes, out, horder, hchanges, hsplice, hout⟩ :=
      (render_eq_splice (Table.ofList [("a", "ü"), ("b", "")]) hscan).2.2.1
        (by simpa using ⟨⟨"ü", by decide⟩, ⟨"", by decide⟩⟩)
    exact ⟨changes, out, horder, hchanges, hsplice, Except.ok.inj (hout.symm.trans hrender)⟩
  · obtain ⟨before, tag, after, hsplit, -, htag, herror⟩ :=
      (render_eq_splice (Table.ofList [("a", "ü")]) hscan).2.2.2 (by
        intro hbound
        obtain ⟨value, hvalue⟩ := hbound ⟨"b", 15, 20⟩ (by simp)
        exact absurd (hvalue.symm.trans (by decide : _ = none)) (Option.some_ne_none value))
    exact ⟨tag, by simp [hsplit], htag, herror⟩

end TagTemplate
