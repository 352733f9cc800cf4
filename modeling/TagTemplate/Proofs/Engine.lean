import TagTemplate.Proofs.Engine.Basic
import TagTemplate.Proofs.Template.Names
import TagTemplate.Proofs.Template.Tags

/-!
# What an engine lacks

The names that an engine lacks for a template are those that are to be bound before the template can
be rendered: binding them all is enough, and no binding of other names makes up for one of them.
Rendering reports the first of them, and a fault of the template only where no tag without a value
stands before it.
-/
namespace TagTemplate.Engine

variable {engine : Engine} {entries : List (String × String)} {name template : String}

theorem binds_extend_iff (h : ∀ entry ∈ entries, isTagName entry.1.toList = true) :
    Model.Binds (engine.extend entries).1.model name ↔
      name ∈ entries.map Prod.fst ∨ Model.Binds engine.model name := by
  rw [extend_of_forall_isTagName h]
  exact Table.exists_lookup_insertAll_iff

def missingAmong (engine : Engine) (tags : List Tag) : List String :=
  (tags.map Tag.name).eraseDups.filter fun name => (Model.lookup engine.model name).isNone

theorem mem_missingAmong_iff {tags : List Tag} :
    name ∈ engine.missingAmong tags ↔
      name ∈ tags.map Tag.name ∧ ¬Model.Binds engine.model name := by
  rw [missingAmong, List.mem_filter, List.mem_eraseDups, Model.not_binds_iff,
    Option.isNone_iff_eq_none]

/-- The missing names stand in the order of first appearance. -/
theorem pairwise_idxOf_missingAmong (tags : List Tag) :
    (engine.missingAmong tags).Pairwise fun a b =>
      (tags.map Tag.name).idxOf a < (tags.map Tag.name).idxOf b :=
  (Names.pairwise_idxOf_eraseDups (tags.map Tag.name)).filter _

theorem missingTags_eq : engine.missingTags template =
    (placeholders template).map engine.missingAmong := by
  rw [missingTags, tagNames, Result.map_map]
  rfl

theorem missingTags_eq_ok_iff {names : List String} :
    engine.missingTags template = .ok names ↔
      ∃ tags, placeholders template = .ok tags ∧ engine.missingAmong tags = names := by
  rw [missingTags_eq, Result.map_eq_ok_iff]

theorem missingTags_eq_error_iff {e : RenderError} :
    engine.missingTags template = .error e ↔ placeholders template = .error e := by
  rw [missingTags_eq, Result.map_eq_error_iff]

/-- The template can be rendered as soon as another model binds all names that the engine lacks and
what the engine binds itself. -/
theorem exists_render_iff_of_missingTags {M : Type u} [Model M] {model : M} {names : List String}
    (h : engine.missingTags template = .ok names)
    (hmodel : ∀ name, Model.Binds engine.model name → Model.Binds model name) :
    (∃ text, TagTemplate.render model template = .ok text) ↔
      ∀ name ∈ names, Model.Binds model name := by
  obtain ⟨tags, htags, rfl⟩ := missingTags_eq_ok_iff.1 h
  rw [exists_render_eq_ok_iff htags]
  constructor
  · intro hbound name hname
    obtain ⟨hmem, -⟩ := mem_missingAmong_iff.1 hname
    obtain ⟨tag, htag, rfl⟩ := List.mem_map.1 hmem
    exact hbound tag htag
  · intro hbound tag htag
    by_cases hown : Model.Binds engine.model tag.name
    · exact hmodel _ hown
    · exact hbound _ (mem_missingAmong_iff.2 ⟨List.mem_map_of_mem htag, hown⟩)

theorem not_binds_of_mem_missingTags {names : List String}
    (h : engine.missingTags template = .ok names) (hname : name ∈ names) :
    ¬Model.Binds engine.model name := by
  obtain ⟨tags, -, rfl⟩ := missingTags_eq_ok_iff.1 h
  exact (mem_missingAmong_iff.1 hname).2

theorem missingTags_eq_nil_iff :
    engine.missingTags template = .ok [] ↔ ∃ text, engine.render template = .ok text := by
  constructor
  · intro h
    exact (exists_render_iff_of_missingTags h fun _ => id).2 (by simp)
  · rintro ⟨text, htext⟩
    obtain ⟨tags, htags⟩ := exists_placeholders_eq_ok htext
    have hmissing : engine.missingTags template = .ok (engine.missingAmong tags) :=
      missingTags_eq_ok_iff.2 ⟨tags, htags, rfl⟩
    have hbound := (exists_render_iff_of_missingTags hmissing fun _ => id).1 ⟨text, htext⟩
    have hnil : engine.missingAmong tags = [] := by
      rw [List.eq_nil_iff_forall_not_mem]
      intro name hname
      exact not_binds_of_mem_missingTags hmissing hname (hbound name hname)
    rw [hmissing, hnil]

/-- Rendering reports the first of the missing names, where it first stands. -/
theorem exists_render_eq_unknownTag_of_missingTags {rest : List String}
    (h : engine.missingTags template = .ok (name :: rest)) :
    ∃ (tags : List Tag) (tag : Tag), placeholders template = .ok tags ∧
      tag.IsFirst (·.name = name) tags ∧
      engine.render template = .error (.unknownTag name (.locate template tag.start)) := by
  obtain ⟨tags, htags, hnames⟩ := missingTags_eq_ok_iff.1 h
  have hleading : leadingTags (scan template) = tags := leadingTags_of_collectTags htags
  have hunbound : ¬∀ tag ∈ leadingTags (scan template), Model.Binds engine.model tag.name := by
    intro hbound
    rw [hleading] at hbound
    obtain ⟨text, htext⟩ := exists_render_eq_ok htags hbound
    have hnil := missingTags_eq_nil_iff.2 ⟨text, htext⟩
    rw [hnil] at h
    cases h
  obtain ⟨before, tag, after, hsplit, hbefore, ⟨hmem, htag, hfirst⟩, herror⟩ :=
    exists_render_eq_unknownTag hunbound
  rw [hleading] at hsplit hmem hfirst
  have hfind : tags.find? (fun t => (Model.lookup engine.model t.name).isNone) = some tag := by
    rw [List.find?_eq_some_iff_append]
    refine ⟨Option.isNone_iff_eq_none.2 (Model.not_binds_iff.1 htag), before, after, hsplit, ?_⟩
    intro t ht
    obtain ⟨value, hvalue⟩ := hbefore t ht
    simp [hvalue]
  have hname : tag.name = name := by
    have hhead := congrArg List.head? hnames
    rw [missingAmong, List.head?_filter, Names.find?_eraseDups, List.find?_map] at hhead
    simpa [Function.comp_def, hfind] using hhead
  subst hname
  refine ⟨tags, tag, htags, ⟨hmem, rfl, ?_⟩, herror⟩
  intro other hother heq
  apply hfirst other hother
  rw [heq]
  exact htag

/-- A fault of the template stays a failure whatever is bound, and is reported unless a tag without
a value stands before it. -/
theorem render_of_missingTags_eq_error {M : Type u} [Model M] {model : M} {e : RenderError}
    (h : engine.missingTags template = .error e) :
    ((∀ tag ∈ leadingTags (scan template), tag.start < e.position.offset →
        Model.Binds model tag.name) → TagTemplate.render model template = .error e) ∧
    (¬(∀ tag ∈ leadingTags (scan template), tag.start < e.position.offset →
        Model.Binds model tag.name) →
      ∃ tag : Tag, tag.IsFirst (fun t => ¬Model.Binds model t.name) (leadingTags (scan template)) ∧
        tag.start < e.position.offset ∧
        TagTemplate.render model template =
          .error (.unknownTag tag.name (.locate template tag.start))) := by
  have hscan := missingTags_eq_error_iff.1 h
  have hbefore : ∀ tag ∈ leadingTags (scan template), tag.start < e.position.offset :=
    start_lt_offset_of_collectTags hscan
  constructor
  · intro hbound
    exact render_eq_error_of_placeholders hscan fun tag htag => hbound tag htag (hbefore tag htag)
  · intro hunbound
    have hunbound' : ¬∀ tag ∈ leadingTags (scan template), Model.Binds model tag.name :=
      fun hbound => hunbound fun tag htag _ => hbound tag htag
    obtain ⟨before, tag, after, -, -, hfirst, herror⟩ := exists_render_eq_unknownTag hunbound'
    exact ⟨tag, hfirst, hbefore tag hfirst.1, herror⟩

/-- What an engine lacks is what has to be bound before a template is rendered, and no more. -/
theorem render_extend_of_missingTags (engine : Engine) (template : String) :
    (∀ names, engine.missingTags template = .ok names →
      (∀ entries : List (String × String),
        (∀ entry ∈ entries, isTagName entry.1.toList = true) →
          (engine.extend entries).2 = .ok () ∧
          ((∃ text, (engine.extend entries).1.render template = .ok text) ↔
            ∀ name ∈ names, name ∈ entries.map Prod.fst)) ∧
      ((∃ text, engine.render template = .ok text) ↔ names = []) ∧
      ∀ name rest, names = name :: rest →
        ∃ (tags : List Tag) (tag : Tag), placeholders template = .ok tags ∧
          tag.IsFirst (·.name = name) tags ∧
          engine.render template = .error (.unknownTag name (.locate template tag.start))) ∧
    ∀ e, engine.missingTags template = .error e →
      ∀ entries : List (String × String),
        (∀ entry ∈ entries, isTagName entry.1.toList = true) →
          (engine.extend entries).2 = .ok () ∧
          ((∀ tag ∈ leadingTags (scan template), tag.start < e.position.offset →
              Model.Binds (engine.extend entries).1.model tag.name) →
            (engine.extend entries).1.render template = .error e) ∧
          (¬(∀ tag ∈ leadingTags (scan template), tag.start < e.position.offset →
              Model.Binds (engine.extend entries).1.model tag.name) →
            ∃ tag : Tag, tag.IsFirst
                (fun t => ¬Model.Binds (engine.extend entries).1.model t.name)
                (leadingTags (scan template)) ∧
              tag.start < e.position.offset ∧
              (engine.extend entries).1.render template =
                .error (.unknownTag tag.name (.locate template tag.start))) := by
  refine ⟨fun names h => ⟨fun entries hvalid => ⟨?_, ?_⟩, ?_, ?_⟩,
    fun e h entries hvalid => ⟨?_, ?_⟩⟩
  · rw [extend_of_forall_isTagName hvalid]
  · have hkept : ∀ name, Model.Binds engine.model name →
        Model.Binds (engine.extend entries).1.model name := fun name hname =>
      (binds_extend_iff hvalid).2 (.inr hname)
    rw [render, exists_render_iff_of_missingTags h hkept]
    apply forall₂_congr
    intro name hname
    rw [binds_extend_iff hvalid, or_iff_left (not_binds_of_mem_missingTags h hname)]
  · rw [← missingTags_eq_nil_iff, h, Except.ok.injEq]
  · rintro name rest rfl
    exact exists_render_eq_unknownTag_of_missingTags h
  · rw [extend_of_forall_isTagName hvalid]
  · exact render_of_missingTags_eq_error h

theorem render_extend_of_missingTags_sample :
    (∃ text, ((⟨Table.ofList [("a", "1")]⟩ : Engine).extend [("c", "x"), ("b", "")]).1.render
        "\x7b\x7bc\x7d\x7d\x7b\x7ba\x7d\x7d\x7b\x7bb\x7d\x7d\x7b\x7bc\x7d\x7d" = .ok text) ∧
      (empty.extend [("a", "1")]).1.render "\x7b\x7ba\x7d\x7d\x7b\x7b9\x7d\x7d" =
        .error (.malformedTag "9" ⟨5, 1, 6⟩) := by
  have hmissing : (⟨Table.ofList [("a", "1")]⟩ : Engine).missingTags
      "\x7b\x7bc\x7d\x7d\x7b\x7ba\x7d\x7d\x7b\x7bb\x7d\x7d\x7b\x7bc\x7d\x7d" = .ok ["c", "b"] := by
    decide +kernel
  have hfault : empty.missingTags "\x7b\x7ba\x7d\x7d\x7b\x7b9\x7d\x7d" =
      .error (.malformedTag "9" ⟨5, 1, 6⟩) := by decide +kernel
  have hbound : ∀ tag ∈ leadingTags (scan "\x7b\x7ba\x7d\x7d\x7b\x7b9\x7d\x7d"), tag.start < 5 →
      Model.Binds (empty.extend [("a", "1")]).1.model tag.name := by
    have htags : leadingTags (scan "\x7b\x7ba\x7d\x7d\x7b\x7b9\x7d\x7d") = [⟨"a", 0, 5⟩] := by
      decide +kernel
    rw [htags, List.forall_mem_singleton]
    exact fun _ => ⟨"1", by decide⟩
  refine ⟨?_, ?_⟩
  · exact ((((render_extend_of_missingTags _ _).1 _ hmissing).1 [("c", "x"), ("b", "")]
      (by decide)).2).2 (by decide)
  · exact ((render_extend_of_missingTags _ _).2 _ hfault [("a", "1")] (by decide)).2.1 hbound

end TagTemplate.Engine
