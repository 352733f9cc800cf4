import TagTemplate.Proofs.Result
import TagTemplate.Proofs.Template.Scan

/-!
# Tags and their values

The tags that a scanner hands out before an error stand one after the other, and the error stands
after them all. Rendering is decided by these tags and the error alone: it fails at the first tag
without a value, and if there is none it ends just as collecting the tags does.
-/
namespace TagTemplate

def leadingTags : List (Except RenderError Segment) → List Tag
  | [] => []
  | .error _ :: _ => []
  | .ok (.text _) :: rest => leadingTags rest
  | .ok (.tag tag) :: rest => tag :: leadingTags rest

theorem leadingTags_of_collectTags {results : List (Except RenderError Segment)} {tags : List Tag}
    (h : collectTags results = .ok tags) : leadingTags results = tags := by
  induction results generalizing tags with
  | nil => exact Except.ok.inj h
  | cons result results ih =>
    match result with
    | .error e => cases h
    | .ok (.text content) => exact ih h
    | .ok (.tag tag) =>
      obtain ⟨tags', htags', rfl⟩ := Result.map_eq_ok_iff.1 h
      rw [leadingTags, ih htags']

def Tag.IsFirst (p : Tag → Prop) (tags : List Tag) (tag : Tag) : Prop :=
  tag ∈ tags ∧ p tag ∧ ∀ other ∈ tags, p other → tag.start ≤ other.start

section Order

variable (source : String) (offset : Nat) (text : List Char)

theorem le_start_of_mem_leadingTags :
    ∀ tag ∈ leadingTags (resultsFrom source offset text), offset ≤ tag.start := by
  induction text using Piece.text_induction generalizing offset with
  | nil => simp [leadingTags]
  | fault fault text h => simp [resultsFrom_fault h, leadingTags]
  | piece piece rest hwf hends ih =>
    have hrest : ∀ tag ∈ leadingTags (resultsFrom source (offset + Text.size piece.print) rest),
        offset ≤ tag.start := fun tag htag => Nat.le_of_add_right_le (ih _ tag htag)
    rw [resultsFrom_piece hwf hends]
    cases piece with
    | literal text => exact hrest
    | escape length => exact hrest
    | tag left name right =>
      rw [Piece.segment, leadingTags, List.forall_mem_cons]
      exact ⟨Nat.le_refl offset, hrest⟩

theorem pairwise_start_lt_leadingTags :
    (leadingTags (resultsFrom source offset text)).Pairwise fun a b => a.start < b.start := by
  induction text using Piece.text_induction generalizing offset with
  | nil => simp [leadingTags]
  | fault fault text h => simp [resultsFrom_fault h, leadingTags]
  | piece piece rest hwf hends ih =>
    rw [resultsFrom_piece hwf hends]
    cases piece with
    | literal text => exact ih _
    | escape length => exact ih _
    | tag left name right =>
      rw [Piece.segment, leadingTags, List.pairwise_cons]
      refine ⟨fun tag htag => ?_, ih _⟩
      have hpos := Text.size_print_pos hwf
      have hle := le_start_of_mem_leadingTags source _ rest tag htag
      change offset < tag.start
      omega

variable {source offset text} {e : RenderError}

theorem le_offset_of_collectTags (h : collectTags (resultsFrom source offset text) = .error e) :
    offset ≤ e.position.offset := by
  induction text using Piece.text_induction generalizing offset with
  | nil => simp [collectTags] at h
  | fault fault text hfault =>
    rw [resultsFrom_fault hfault] at h
    rw [← Except.error.inj h, Piece.Fault.position_toError]
    exact Nat.le_refl offset
  | piece piece rest hwf hends ih =>
    rw [resultsFrom_piece hwf hends] at h
    cases piece with
    | literal text => exact Nat.le_of_add_right_le (ih h)
    | escape length => exact Nat.le_of_add_right_le (ih h)
    | tag left name right => exact Nat.le_of_add_right_le (ih (Result.map_eq_error_iff.1 h))

/-- An error stands after all tags that are handed out. -/
theorem start_lt_offset_of_collectTags
    (h : collectTags (resultsFrom source offset text) = .error e) :
    ∀ tag ∈ leadingTags (resultsFrom source offset text), tag.start < e.position.offset := by
  induction text using Piece.text_induction generalizing offset with
  | nil => simp [collectTags] at h
  | fault fault text hfault => simp [resultsFrom_fault hfault, leadingTags]
  | piece piece rest hwf hends ih =>
    rw [resultsFrom_piece hwf hends] at h ⊢
    cases piece with
    | literal text => exact ih h
    | escape length => exact ih h
    | tag left name right =>
      have hrest := Result.map_eq_error_iff.1 h
      rw [Piece.segment, leadingTags, List.forall_mem_cons]
      refine ⟨?_, ih hrest⟩
      have hpos := Text.size_print_pos hwf
      have hle := le_offset_of_collectTags hrest
      change offset < e.position.offset
      omega

end Order

section Values

variable {M : Type u} [Model M]

def Model.Binds (model : M) (name : String) : Prop := ∃ value, Model.lookup model name = some value

variable {model : M} {source : String} {results : List (Except RenderError Segment)}

theorem Model.not_binds_iff {name : String} :
    ¬Model.Binds model name ↔ Model.lookup model name = none := by
  rw [Model.Binds, ← Option.isSome_iff_exists, Option.not_isSome_iff_eq_none]

theorem fill_eq_error_of_unbound {before after : List Tag} {tag : Tag}
    (hsplit : leadingTags results = before ++ tag :: after)
    (hbefore : ∀ t ∈ before, Model.Binds model t.name) (htag : ¬Model.Binds model tag.name) :
    fill model source results = .error (.unknownTag tag.name (.locate source tag.start)) := by
  induction results generalizing before with
  | nil => simp [leadingTags] at hsplit
  | cons result results ih =>
    match result with
    | .error e => simp [leadingTags] at hsplit
    | .ok (.text content) => rw [fill, ih hsplit hbefore, Result.map_error]
    | .ok (.tag first) =>
      rw [leadingTags] at hsplit
      cases before with
      | nil =>
        obtain ⟨rfl, -⟩ := List.cons.inj hsplit
        simp only [fill, Model.not_binds_iff.1 htag]
      | cons t before =>
        obtain ⟨rfl, hrest⟩ := List.cons.inj hsplit
        obtain ⟨⟨value, hvalue⟩, hbound⟩ := List.forall_mem_cons.1 hbefore
        simp only [fill, hvalue, ih hrest hbound, Result.map_error]

theorem fill_eq_error_of_collectTags {e : RenderError} (h : collectTags results = .error e)
    (hbound : ∀ tag ∈ leadingTags results, Model.Binds model tag.name) :
    fill model source results = .error e := by
  induction results with
  | nil => cases h
  | cons result results ih =>
    match result with
    | .error e' => exact congrArg Except.error (Except.error.inj h)
    | .ok (.text content) => rw [fill, ih h hbound, Result.map_error]
    | .ok (.tag tag) =>
      obtain ⟨⟨value, hvalue⟩, hbound⟩ := List.forall_mem_cons.1 hbound
      simp only [fill, hvalue, ih (Result.map_eq_error_iff.1 h) hbound, Result.map_error]

theorem exists_fill_eq_ok {tags : List Tag} (h : collectTags results = .ok tags)
    (hbound : ∀ tag ∈ tags, Model.Binds model tag.name) :
    ∃ texts, fill model source results = .ok texts := by
  induction results generalizing tags with
  | nil => exact ⟨[], rfl⟩
  | cons result results ih =>
    match result with
    | .error e => cases h
    | .ok (.text content) =>
      obtain ⟨texts, htexts⟩ := ih h hbound
      exact ⟨content :: texts, by rw [fill, htexts, Result.map_ok]⟩
    | .ok (.tag tag) =>
      obtain ⟨tags, htags, rfl⟩ := Result.map_eq_ok_iff.1 h
      obtain ⟨⟨value, hvalue⟩, hbound⟩ := List.forall_mem_cons.1 hbound
      obtain ⟨texts, htexts⟩ := ih htags hbound
      exact ⟨value :: texts, by simp only [fill, hvalue, htexts, Result.map_ok]⟩

variable {template : String}

/-- A template that can be scanned is rendered if each of its tags has a value. -/
theorem exists_render_eq_ok {tags : List Tag} (h : placeholders template = .ok tags)
    (hbound : ∀ tag ∈ tags, Model.Binds model tag.name) :
    ∃ text, render model template = .ok text := by
  obtain ⟨texts, htexts⟩ : ∃ texts, fill model template (scan template) = .ok texts :=
    exists_fill_eq_ok h hbound
  exact ⟨String.join texts, by rw [render, htexts, Result.map_ok]⟩

theorem render_eq_error_of_placeholders {e : RenderError} (h : placeholders template = .error e)
    (hbound : ∀ tag ∈ leadingTags (scan template), Model.Binds model tag.name) :
    render model template = .error e := by
  rw [render, fill_eq_error_of_collectTags h hbound, Result.map_error]

/-- Of the tags without a value the first one is reported. -/
theorem exists_render_eq_unknownTag
    (h : ¬∀ tag ∈ leadingTags (scan template), Model.Binds model tag.name) :
    ∃ before tag after, leadingTags (scan template) = before ++ tag :: after ∧
      (∀ t ∈ before, Model.Binds model t.name) ∧
      tag.IsFirst (fun t => ¬Model.Binds model t.name) (leadingTags (scan template)) ∧
      render model template = .error (.unknownTag tag.name (.locate template tag.start)) := by
  obtain ⟨before, tag, after, hsplit, hbound, hunbound⟩ :=
    (forall_or_exists_first (fun tag => Model.Binds model tag.name)
      (leadingTags (scan template))).resolve_left h
  refine ⟨before, tag, after, hsplit, hbound, ⟨?_, hunbound, ?_⟩, ?_⟩
  · simp [hsplit]
  · intro other hother hother'
    have hordered := pairwise_start_lt_leadingTags template 0 template.toList
    rw [← scan_eq_resultsFrom, hsplit, List.pairwise_append, List.pairwise_cons] at hordered
    rw [hsplit, List.mem_append, List.mem_cons] at hother
    rcases hother with hmem | rfl | hmem
    · exact absurd (hbound other hmem) hother'
    · exact Nat.le_refl _
    · exact Nat.le_of_lt (hordered.2.1.1 other hmem)
  · rw [render, fill_eq_error_of_unbound hsplit hbound hunbound, Result.map_error]

theorem exists_placeholders_eq_ok {text : String} (h : render model template = .ok text) :
    ∃ tags, placeholders template = .ok tags := by
  cases hscan : placeholders template with
  | ok tags => exact ⟨tags, rfl⟩
  | error e =>
    by_cases hbound : ∀ tag ∈ leadingTags (scan template), Model.Binds model tag.name
    · rw [render_eq_error_of_placeholders hscan hbound] at h
      cases h
    · obtain ⟨before, tag, after, -, -, -, herror⟩ := exists_render_eq_unknownTag hbound
      rw [herror] at h
      cases h

theorem exists_render_eq_ok_iff {tags : List Tag} (h : placeholders template = .ok tags) :
    (∃ text, render model template = .ok text) ↔ ∀ tag ∈ tags, Model.Binds model tag.name := by
  refine ⟨fun ⟨text, htext⟩ => ?_, exists_render_eq_ok h⟩
  by_contra hunbound
  rw [← leadingTags_of_collectTags h] at hunbound
  obtain ⟨before, tag, after, -, -, -, herror⟩ := exists_render_eq_unknownTag hunbound
  rw [htext] at herror
  cases herror

end Values

end TagTemplate
