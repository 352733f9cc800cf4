import TagTemplate.Proofs.Template.Append
import TagTemplate.Proofs.Template.Tags

/-!
# One template and two models

A template alone decides what is copied and where a value goes, and a model only whether a tag has
a value. So the values do not bear on whether rendering succeeds, nor on any error, and a model that
gives more names a value gets at least as far in the template.
-/
namespace TagTemplate

def leadingSegments : List (Except RenderError Segment) → List Segment
  | [] => []
  | .error _ :: _ => []
  | .ok segment :: rest => segment :: leadingSegments rest

/-- What is copied from a template, and the tags that values take the places of. -/
def outline (template : String) : List Segment := leadingSegments (scan template)

def Segment.value? {M : Type u} [Model M] (model : M) : Segment → Option String
  | .text content => some content
  | .tag t => Model.lookup model t.name

section Noninterference

variable {M : Type u} [Model M] {model : M} {M₁ : Type v} [Model M₁] {m₁ : M₁} {M₂ : Type w}
  [Model M₂] {m₂ : M₂} {source : String} {results : List (Except RenderError Segment)}

theorem mapM_value?_of_fill {texts : List String} (h : fill model source results = .ok texts) :
    (leadingSegments results).mapM (Segment.value? model) = some texts := by
  induction results generalizing texts with
  | nil => rw [← Except.ok.inj h]; rfl
  | cons result results ih =>
    match result with
    | .error e => cases h
    | .ok (.text content) =>
      obtain ⟨texts, htexts, rfl⟩ := Result.map_eq_ok_iff.1 h
      rw [leadingSegments, List.mapM_cons, ih htexts]
      rfl
    | .ok (.tag tag) =>
      cases hvalue : Model.lookup model tag.name with
      | none => simp [fill, hvalue] at h
      | some value =>
        simp only [fill, hvalue] at h
        obtain ⟨texts, htexts, rfl⟩ := Result.map_eq_ok_iff.1 h
        rw [leadingSegments, List.mapM_cons, Segment.value?, hvalue, ih htexts]
        rfl

/-- An error only tells that a tag has no value, or where the template is at fault. -/
theorem fill_eq_error_of_binds_iff {e : RenderError}
    (hbinds : ∀ tag ∈ leadingTags results, Model.Binds m₁ tag.name ↔ Model.Binds m₂ tag.name)
    (h : fill m₁ source results = .error e) : fill m₂ source results = .error e := by
  induction results with
  | nil => cases h
  | cons result results ih =>
    match result with
    | .error e' => exact h
    | .ok (.text content) =>
      exact Result.map_eq_error_iff.2 (ih hbinds (Result.map_eq_error_iff.1 h))
    | .ok (.tag tag) =>
      obtain ⟨htag, hrest⟩ := List.forall_mem_cons.1 hbinds
      cases hvalue : Model.lookup m₁ tag.name with
      | none =>
        have hunbound := Model.not_binds_iff.1 (mt htag.2 (Model.not_binds_iff.2 hvalue))
        simpa only [fill, hvalue, hunbound] using h
      | some value =>
        obtain ⟨other, hother⟩ := htag.1 ⟨value, hvalue⟩
        simp only [fill, hvalue] at h
        simp only [fill, hother]
        exact Result.map_eq_error_iff.2 (ih hrest (Result.map_eq_error_iff.1 h))

/-- Values cannot influence control: two models that give values to the same tags of a template end
in the same error, or put their values in the places that the template alone decides. -/
theorem render_eq_error_or_outline {template : String}
    (h : ∀ tag ∈ leadingTags (scan template),
      Model.Binds m₁ tag.name ↔ Model.Binds m₂ tag.name) :
    (∃ e, render m₁ template = .error e ∧ render m₂ template = .error e) ∨
      ∃ texts₁ texts₂,
        (outline template).mapM (Segment.value? m₁) = some texts₁ ∧
        (outline template).mapM (Segment.value? m₂) = some texts₂ ∧
        render m₁ template = .ok (String.join texts₁) ∧
        render m₂ template = .ok (String.join texts₂) := by
  simp only [render, Result.map_eq_error_iff]
  cases hfirst : fill m₁ template (scan template) with
  | error e => exact .inl ⟨e, rfl, fill_eq_error_of_binds_iff h hfirst⟩
  | ok texts₁ =>
    cases hsecond : fill m₂ template (scan template) with
    | error e =>
      rw [fill_eq_error_of_binds_iff (fun tag htag => (h tag htag).symm) hsecond] at hfirst
      cases hfirst
    | ok texts₂ =>
      exact .inr ⟨texts₁, texts₂, mapM_value?_of_fill hfirst, mapM_value?_of_fill hsecond, rfl, rfl⟩

theorem render_eq_error_or_outline_sample :
    (∃ texts₁ texts₂,
      (outline "\x7b\x7ba\x7d\x7d\x7bb").mapM
        (Segment.value? (Table.ofList [("a", "\x7b\x7bb")])) = some texts₁ ∧
      (outline "\x7b\x7ba\x7d\x7d\x7bb").mapM
        (Segment.value? (Table.ofList [("a", ""), ("b", "x")])) = some texts₂ ∧
      render (Table.ofList [("a", "\x7b\x7bb")]) "\x7b\x7ba\x7d\x7d\x7bb" =
        .ok (String.join texts₁) ∧
      render (Table.ofList [("a", ""), ("b", "x")]) "\x7b\x7ba\x7d\x7d\x7bb" =
        .ok (String.join texts₂)) ∧
    render (Table.ofList [("a", ""), ("b", "x")]) "\x7b\x7ba\x7d\x7d\x7b\x7b" =
      .error (.unterminatedPlaceholder ⟨5, 1, 6⟩) := by
  have hbinds : ∀ tag ∈ [Tag.mk "a" 0 5],
      Model.Binds (Table.ofList [("a", "\x7b\x7bb")]) tag.name ↔
        Model.Binds (Table.ofList [("a", ""), ("b", "x")]) tag.name := by
    rw [List.forall_mem_singleton]
    exact ⟨fun _ => ⟨"", by decide⟩, fun _ => ⟨"\x7b\x7bb", by decide⟩⟩
  have htags : leadingTags (scan "\x7b\x7ba\x7d\x7d\x7bb") = [⟨"a", 0, 5⟩] := by decide +kernel
  have htags' : leadingTags (scan "\x7b\x7ba\x7d\x7d\x7b\x7b") = [⟨"a", 0, 5⟩] := by
    decide +kernel
  have hfirst : render (Table.ofList [("a", "\x7b\x7bb")]) "\x7b\x7ba\x7d\x7d\x7bb" =
      .ok "\x7b\x7bb\x7bb" := by decide +kernel
  have hfault : render (Table.ofList [("a", "\x7b\x7bb")]) "\x7b\x7ba\x7d\x7d\x7b\x7b" =
      .error (.unterminatedPlaceholder ⟨5, 1, 6⟩) := by decide +kernel
  constructor
  · refine (render_eq_error_or_outline (htags ▸ hbinds)).resolve_left ?_
    rintro ⟨e, he, -⟩
    rw [hfirst] at he
    cases he
  · rcases render_eq_error_or_outline (htags' ▸ hbinds) with ⟨e, he, he'⟩ | ⟨_, _, -, -, he, -⟩
    · rw [hfault] at he
      rw [he', ← Except.error.inj he]
    · rw [hfault] at he
      cases he

end Noninterference

section Extension

variable {M : Type u} [Model M] {m : M} {M' : Type v} [Model M'] {m' : M'}

def Model.Extends (m' : M') (m : M) : Prop :=
  ∀ name value, Model.lookup m name = some value → Model.lookup m' name = some value

variable {source : String} {offset : Nat} {text : List Char}

theorem Piece.output_of_extends {piece : Piece} {position : Position} {out : String}
    (hm : Model.Extends m' m) (h : piece.output m position = .ok out) :
    piece.output m' position = .ok out := by
  cases piece with
  | literal text => exact h
  | escape length => exact h
  | tag left name right =>
    rw [output] at h ⊢
    cases hvalue : Model.lookup m (String.ofList name) with
    | none =>
      rw [hvalue] at h
      cases h
    | some value =>
      rw [hm _ value hvalue]
      rwa [hvalue] at h

theorem Piece.error_eq_of_output {piece : Piece} {position : Position} {e e' : RenderError}
    (h : piece.output m position = .error e) (h' : piece.output m' position = .error e') :
    e = e' := by
  cases piece with
  | literal text => cases h
  | escape length => cases h
  | tag left name right =>
    rw [output] at h h'
    split at h
    · split at h'
      · exact (Except.error.inj h).symm.trans (Except.error.inj h')
      · cases h'
    · cases h

theorem walk_of_extends {out : String} (hm : Model.Extends m' m)
    (h : walk m source offset text = .ok out) : walk m' source offset text = .ok out := by
  induction text using Piece.text_induction generalizing offset out with
  | nil => rwa [walk_nil] at h ⊢
  | fault fault text hfault => simp [walk_fault m source offset hfault] at h
  | piece piece rest hwf hends ih =>
    have hborder := Piece.border_of_endsBefore hwf hends
    rw [walk_piece m source offset hwf hborder] at h
    obtain ⟨value, hvalue, hrest⟩ := Result.bind_eq_ok_iff.1 h
    obtain ⟨more, hmore, rfl⟩ := Result.map_eq_ok_iff.1 hrest
    rw [walk_piece m' source offset hwf hborder, Piece.output_of_extends hm hvalue, Result.bind_ok,
      ih hmore, Result.map_ok]

theorem le_offset_of_walk_eq_error {e : RenderError} (h : walk m source offset text = .error e) :
    offset ≤ e.position.offset := by
  obtain ⟨before, after, -, hposition⟩ := exists_append_of_walk_eq_error h
  rw [hposition]
  exact Nat.le_add_right offset (Text.size before)

/-- With fewer names an error comes no later, and at the same place it is the same one. -/
theorem exists_walk_eq_error_of_extends {e' : RenderError} (hm : Model.Extends m' m)
    (h : walk m' source offset text = .error e') :
    ∃ e, walk m source offset text = .error e ∧ e.position.offset ≤ e'.position.offset ∧
      (e.position.offset = e'.position.offset → e = e') := by
  induction text using Piece.text_induction generalizing offset with
  | nil => simp [walk_nil] at h
  | fault fault text hfault =>
    rw [walk_fault m' source offset hfault] at h
    rw [walk_fault m source offset hfault]
    exact ⟨e', h, Nat.le_refl _, fun _ => rfl⟩
  | piece piece rest hwf hends ih =>
    have hborder := Piece.border_of_endsBefore hwf hends
    rw [walk_piece m' source offset hwf hborder] at h
    rw [walk_piece m source offset hwf hborder]
    cases hvalue : piece.output m (.locate source offset) with
    | ok value =>
      rw [Piece.output_of_extends hm hvalue] at h
      obtain ⟨e, he, hle, heq⟩ := ih (Result.map_eq_error_iff.1 h)
      exact ⟨e, Result.map_eq_error_iff.2 he, hle, heq⟩
    | error e =>
      have hoffset : e.position.offset = offset :=
        congrArg Position.offset (Piece.position_of_output hvalue)
      refine ⟨e, rfl, ?_⟩
      cases hvalue' : piece.output m' (.locate source offset) with
      | error other =>
        rw [hvalue'] at h
        have heq : e = e' :=
          (Piece.error_eq_of_output hvalue hvalue').trans (Except.error.inj h)
        exact ⟨Nat.le_of_eq (congrArg (·.position.offset) heq), fun _ => heq⟩
      | ok value =>
        -- Only the larger model knows the tag, and its error stands beyond it.
        rw [hvalue'] at h
        have hbeyond := le_offset_of_walk_eq_error (Result.map_eq_error_iff.1 h)
        have hpos := Text.size_print_pos hwf
        refine ⟨by omega, fun heq => ?_⟩
        omega

/-- Adding names to a model never hurts: what is rendered stays as it is, and an error that is left
is the one that there was, or one that comes after it. -/
theorem render_of_extends {template : String} (hm : Model.Extends m' m) :
    (∀ out, render m template = .ok out → render m' template = .ok out) ∧
    ∀ e', render m' template = .error e' →
      ∃ e, render m template = .error e ∧ e.position.offset ≤ e'.position.offset ∧
        (e.position.offset = e'.position.offset → e = e') := by
  simp only [render, scan_eq_resultsFrom, join_fill_resultsFrom]
  exact ⟨fun out h => walk_of_extends hm h, fun e' h => exists_walk_eq_error_of_extends hm h⟩

theorem render_of_extends_sample :
    render (Table.ofList [("a", "1"), ("b", "2")]) "\x7b\x7ba\x7d\x7d" = .ok "1" ∧
      ∃ e, render (Table.ofList [("a", "1")]) "\x7b\x7bb\x7d\x7d\x7b\x7b" = .error e ∧
        e.position.offset ≤ 5 ∧
        (e.position.offset = 5 → e = .unterminatedPlaceholder ⟨5, 1, 6⟩) := by
  have hm : Model.Extends (Table.ofList [("a", "1"), ("b", "2")]) (Table.ofList [("a", "1")]) := by
    intro name value h
    have hname : name ≠ "b" := by
      rintro rfl
      exact absurd (h.symm.trans (by decide : _ = none)) (Option.some_ne_none value)
    exact (Table.lookup_insert _ "b" "2" name).trans ((if_neg hname).trans h)
  have hout : render (Table.ofList [("a", "1")]) "\x7b\x7ba\x7d\x7d" = .ok "1" := by decide +kernel
  have herror : render (Table.ofList [("a", "1"), ("b", "2")]) "\x7b\x7bb\x7d\x7d\x7b\x7b" =
      .error (.unterminatedPlaceholder ⟨5, 1, 6⟩) := by decide +kernel
  exact ⟨(render_of_extends hm).1 "1" hout, (render_of_extends hm).2 _ herror⟩

end Extension

end TagTemplate
