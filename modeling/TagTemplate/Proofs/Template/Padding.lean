import TagTemplate.Proofs.Template.Marker
import TagTemplate.Proofs.Template.Replace
import TagTemplate.Proofs.Template.Runs

/-!
# Padding and the length of escapes

The blanks around a name and the number of braces in an escape tell nothing. A template in which
some of them are changed has pieces of the same kinds in the same order, with the same names and the
same text between them, so it is rendered alike under every model.
-/
namespace TagTemplate

open Piece (Normal printAll)

/-- Whether a change puts other blanks around the name of a tag, or makes another run of three or
more out of such a run of opening braces. -/
def IsInsignificant (source : String) (tags : List Tag) (change : Text.Change) : Prop :=
  (∃ tag ∈ tags, ∃ left right, Text.Blank left.toList ∧ Text.Blank right.toList ∧
    change = ⟨tag.start, tag.stop, marker left tag.name right⟩) ∨
  IsRun source change.start change.stop ∧ change.start + 3 ≤ change.stop ∧
    ∃ length, 3 ≤ length ∧ change.text = String.ofList (List.replicate length '{')

/-- Whether rendering fails because the tag of a number, which has a name, has no value. -/
def FailsAt {M : Type u} [Model M] (model : M) (template : String) (tags : List Tag) (i : Nat)
    (name : String) : Prop :=
  ∃ tag, tags[i]? = some tag ∧ tag.name = name ∧
    render model template = .error (.unknownTag name (.locate template tag.start))

namespace Piece

inductive SameUpToPadding : Piece → Piece → Prop where
  | literal (text : List Char) : SameUpToPadding (.literal text) (.literal text)
  | escape {length length' : Nat} (h : 3 ≤ length') :
      SameUpToPadding (.escape length) (.escape length')
  | tag {left name right left' right' : List Char} (hl : Text.Blank left')
      (hr : Text.Blank right') : SameUpToPadding (.tag left name right) (.tag left' name right')

variable {piece other next next' : Piece} {pieces others : List Piece}

theorem sameUpToPadding_self (h : piece.WellFormed) : SameUpToPadding piece piece := by
  cases piece with
  | literal text => exact .literal text
  | escape length => exact .escape h
  | tag left name right => exact .tag h.1 h.2.2

namespace SameUpToPadding

theorem wellFormed (h : SameUpToPadding piece other) (hwf : piece.WellFormed) :
    other.WellFormed := by
  cases h with
  | literal text => exact hwf
  | escape h => exact h
  | tag hl hr => exact ⟨hl, hwf.2.1, hr⟩

theorem mayPrecede (h : SameUpToPadding piece other) (hnext : SameUpToPadding next next')
    (hmay : piece.MayPrecede next) : other.MayPrecede next' := by
  cases h <;> cases hnext <;> exact hmay

theorem name?_eq (h : SameUpToPadding piece other) : other.name? = piece.name? := by
  cases h <;> rfl

theorem value_eq {M : Type u} [Model M] (model : M) (h : SameUpToPadding piece other) :
    other.value model = piece.value model := by
  cases h <;> rfl

end SameUpToPadding

theorem normal_of_sameUpToPadding (h : List.Forall₂ SameUpToPadding pieces others)
    (hnormal : Normal pieces) : Normal others := by
  induction h with
  | nil => exact normal_nil
  | cons hpiece hrest ih =>
    obtain ⟨hwf, hmay, hpieces⟩ := normal_cons.1 hnormal
    refine normal_cons.2 ⟨hpiece.wellFormed hwf, ?_, ih hpieces⟩
    cases hrest with
    | nil => exact fun next hnext => by cases hnext
    | cons hnext _ =>
      rintro _ ⟨⟩
      exact hpiece.mayPrecede hnext (hmay _ rfl)

theorem map_eq_of_sameUpToPadding {β : Type v} {f : Piece → β}
    (hf : ∀ piece other, SameUpToPadding piece other → f other = f piece)
    (h : List.Forall₂ SameUpToPadding pieces others) : others.map f = pieces.map f := by
  induction h with
  | nil => rfl
  | cons hpiece _ ih => rw [List.map_cons, List.map_cons, hf _ _ hpiece, ih]

theorem filterMap_name?_eq (h : List.Forall₂ SameUpToPadding pieces others) :
    others.filterMap name? = pieces.filterMap name? := by
  have hmap := congrArg (List.filterMap id)
    (map_eq_of_sameUpToPadding (fun _ _ => SameUpToPadding.name?_eq) h)
  rwa [List.filterMap_map, List.filterMap_map] at hmap

end Piece

open Piece (SameUpToPadding)

variable {pieces : List Piece} {tags : List Tag}

theorem isReplacement_of_isInsignificant (h : Normal pieces) {change : Text.Change}
    (hchange : IsInsignificant (String.ofList (printAll pieces)) (tagsFrom 0 pieces) change) :
    IsReplacement SameUpToPadding 0 pieces change := by
  rcases hchange with ⟨tag, htag, left, right, hl, hr, rfl⟩ | ⟨hrun, hlength, length, h3, htext⟩
  · obtain ⟨left', name, right', hplace, hname⟩ := mem_tagsFrom_iff.1 htag
    refine ⟨_, .tag left.toList name right.toList, .tag hl hr, hplace, ?_⟩
    dsimp only
    rw [← String.ofList_toList (s := marker left tag.name right), toList_marker, hname,
      String.toList_ofList]
  · obtain ⟨length', hplace⟩ := (isRun_iff h).1 ⟨hrun, hlength⟩
    exact ⟨_, .escape length, .escape h3, hplace, htext⟩

/-- What stands between the offsets of a tag is a marker for its name. -/
theorem slice?_of_mem_tagsFrom (h : Normal pieces) {tag : Tag} (htag : tag ∈ tagsFrom 0 pieces) :
    ∃ left right, Text.Blank left.toList ∧ Text.Blank right.toList ∧
      Text.slice? tag.start tag.stop (printAll pieces) =
        some (marker left tag.name right).toList := by
  obtain ⟨left, name, right, hplace, hname⟩ := mem_tagsFrom_iff.1 htag
  obtain ⟨before, after, hpieces, hstart, hstop⟩ := mem_placesFrom_iff.1 hplace
  dsimp only at hpieces hstart hstop
  obtain ⟨hl, -, hr⟩ := h.1 (.tag left name right) (by simp [hpieces])
  refine ⟨String.ofList left, String.ofList right, by rwa [String.toList_ofList],
    by rwa [String.toList_ofList], ?_⟩
  rw [toList_marker, String.toList_ofList, String.toList_ofList, hname, String.toList_ofList,
    hstop, hstart, Nat.zero_add, hpieces, Piece.printAll_append, Piece.printAll_cons,
    ← List.append_assoc, Text.slice?_append]

variable {M : Type u} [Model M] {model : M}

/-- Templates whose tags have the same names fail at the same one if a name has no value. -/
theorem exists_unknownTag_of_map_name {template other : String} {tags' : List Tag}
    (h : placeholders template = .ok tags) (h' : placeholders other = .ok tags')
    (hnames : tags'.map Tag.name = tags.map Tag.name)
    (hunbound : ¬∀ tag ∈ tags, Model.Binds model tag.name) :
    ∃ i name, FailsAt model template tags i name ∧ FailsAt model other tags' i name := by
  obtain ⟨before, tag, after, rfl, hbefore, htag, hrender⟩ :=
    exists_unknownTag_of_placeholders h hunbound
  rw [List.map_append, List.map_cons] at hnames
  obtain ⟨before', rest, rfl, hbefore', hrest⟩ := List.map_eq_append_iff.1 hnames
  obtain ⟨tag', after', rfl, hname, -⟩ := List.map_eq_cons_iff.1 hrest
  have hlength : before'.length = before.length := by
    simpa using congrArg List.length hbefore'
  have hbound : ∀ t ∈ before', Model.Binds model t.name := by
    rw [← List.forall_mem_map (f := Tag.name), hbefore', List.forall_mem_map]
    exact hbefore
  have hrender' := render_eq_unknownTag h' hbound (by rwa [hname])
  rw [hname] at hrender'
  exact ⟨before.length, tag.name, ⟨tag, by simp, rfl, hrender⟩, tag', by simp [← hlength], hname,
    hrender'⟩

/-- Padding and the length of escapes are insignificant: when blanks around the names of some tags
and the lengths of some runs are changed, the template can still be scanned, its tags have the same
names one by one, and it is rendered to the same text or fails at the same one of its tags. -/
theorem render_of_isInsignificant (model : M) {template : String} {changes : List Text.Change}
    (h : placeholders template = .ok tags)
    (hchanges : ∀ change ∈ changes, IsInsignificant template tags change)
    (horder : Text.InOrder changes) :
    (∀ tag ∈ tags, ∃ left right, Text.Blank left.toList ∧ Text.Blank right.toList ∧
      Text.slice? tag.start tag.stop template.toList =
        some (marker left tag.name right).toList) ∧
    ∃ other tags', Text.splice? template.toList 0 changes = some other.toList ∧
      placeholders other = .ok tags' ∧ tags'.map Tag.name = tags.map Tag.name ∧
      ((∃ out, render model template = .ok out ∧ render model other = .ok out) ∨
        ∃ i name, FailsAt model template tags i name ∧ FailsAt model other tags' i name) := by
  obtain ⟨pieces, hnormal, rfl, rfl⟩ := exists_normal_of_placeholders h
  obtain ⟨others, hmakes⟩ := exists_makes hnormal.1
    (fun piece hpiece => Piece.sameUpToPadding_self (hnormal.1 piece hpiece)) horder
    fun change hchange => isReplacement_of_isInsignificant hnormal (hchanges change hchange)
  have hsame := hmakes.forall₂
  have hnormal' : Normal others := Piece.normal_of_sameUpToPadding hsame hnormal
  have hnames := Piece.filterMap_name?_eq hsame
  have htags : (tagsFrom 0 others).map Tag.name = (tagsFrom 0 pieces).map Tag.name := by
    rw [map_name_tagsFrom, map_name_tagsFrom, hnames]
  have hscan := placeholders_printAll hnormal'
  refine ⟨fun tag htag => ?_, String.ofList (printAll others), tagsFrom 0 others, ?_, hscan,
    htags, ?_⟩
  · rw [String.toList_ofList]
    exact slice?_of_mem_tagsFrom hnormal htag
  · rw [String.toList_ofList, String.toList_ofList, hmakes.splice?]
  by_cases hbound : ∀ tag ∈ tagsFrom 0 pieces, Model.Binds model tag.name
  · have hvalues := (forall_binds_name?_iff 0 pieces).2 hbound
    refine .inl ⟨_, render_printAll hnormal hvalues, ?_⟩
    rw [render_printAll hnormal' (hnames ▸ hvalues),
      Piece.map_eq_of_sameUpToPadding (fun _ _ => SameUpToPadding.value_eq model) hsame]
  · exact .inr (exists_unknownTag_of_map_name h hscan htags hbound)

theorem render_of_isInsignificant_sample :
    placeholders "\x7b\x7b\x7ba\x7d\x7d\x7b\x7b a\x7d\x7d\x7b\x7bb\x7d\x7d" =
        .ok [⟨"a", 6, 12⟩, ⟨"b", 12, 17⟩] ∧ ∃ other tags',
      Text.splice? "\x7b\x7b\x7ba\x7d\x7d\x7b\x7b a\x7d\x7d\x7b\x7bb\x7d\x7d".toList 0
        [⟨0, 3, "\x7b\x7b\x7b\x7b"⟩, ⟨6, 12, marker "" "a" "\u2003\n"⟩] = some other.toList ∧
      placeholders other = .ok tags' ∧ tags'.map Tag.name = ["a", "b"] ∧
      ∃ i, FailsAt (Table.ofList [("a", "x")])
          "\x7b\x7b\x7ba\x7d\x7d\x7b\x7b a\x7d\x7d\x7b\x7bb\x7d\x7d"
          [⟨"a", 6, 12⟩, ⟨"b", 12, 17⟩] i "b" ∧
        FailsAt (Table.ofList [("a", "x")]) other tags' i "b" := by
  have hscan : placeholders "\x7b\x7b\x7ba\x7d\x7d\x7b\x7b a\x7d\x7d\x7b\x7bb\x7d\x7d" =
      .ok [⟨"a", 6, 12⟩, ⟨"b", 12, 17⟩] := by decide +kernel
  have herror : render (Table.ofList [("a", "x")])
      "\x7b\x7b\x7ba\x7d\x7d\x7b\x7b a\x7d\x7d\x7b\x7bb\x7d\x7d" =
      .error (.unknownTag "b" ⟨12, 1, 13⟩) := by decide +kernel
  have hrun : IsRun "\x7b\x7b\x7ba\x7d\x7d\x7b\x7b a\x7d\x7d\x7b\x7bb\x7d\x7d" 0 3 :=
    ⟨[], 3, "a\x7d\x7d\x7b\x7b a\x7d\x7d\x7b\x7bb\x7d\x7d".toList, by decide, rfl, rfl,
      by decide, by decide⟩
  have hchanges : ∀ change ∈ [⟨0, 3, "\x7b\x7b\x7b\x7b"⟩, ⟨6, 12, marker "" "a" "\u2003\n"⟩],
      IsInsignificant "\x7b\x7b\x7ba\x7d\x7d\x7b\x7b a\x7d\x7d\x7b\x7bb\x7d\x7d"
        [⟨"a", 6, 12⟩, ⟨"b", 12, 17⟩] change := by
    rw [List.forall_mem_cons, List.forall_mem_singleton]
    exact ⟨.inr ⟨hrun, by decide, 4, by decide, by decide⟩,
      .inl ⟨⟨"a", 6, 12⟩, by simp, "", "\u2003\n", by decide, by decide, rfl⟩⟩
  have horder : Text.InOrder
      [⟨0, 3, "\x7b\x7b\x7b\x7b"⟩, ⟨6, 12, marker "" "a" "\u2003\n"⟩] := by
    unfold Text.InOrder
    decide
  obtain ⟨-, other, tags', hsplice, hscan', hnames, houtcome⟩ :=
    render_of_isInsignificant (Table.ofList [("a", "x")]) hscan hchanges horder
  refine ⟨hscan, other, tags', hsplice, hscan', hnames, ?_⟩
  rcases houtcome with ⟨out, hout, -⟩ | ⟨i, name, hfails, hfails'⟩
  · rw [herror] at hout
    cases hout
  · obtain ⟨tag, htag, hname, hrender⟩ := hfails
    obtain ⟨rfl, -⟩ := RenderError.unknownTag.inj (Except.error.inj (herror.symm.trans hrender))
    exact ⟨i, ⟨tag, htag, hname, hrender⟩, hfails'⟩

end TagTemplate
