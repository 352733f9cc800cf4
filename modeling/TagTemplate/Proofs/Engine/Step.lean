import TagTemplate.Proofs.Engine.Basic
import TagTemplate.Proofs.Text.Order

/-!
# Steps of an engine

What an engine can be asked to do, and the rules of what comes of it. An operation that is refused
reports the first name at fault, in the order in which the names are taken. A single binding and
a whole model are taken or left as a whole, whereas of several bindings those before the first at
fault stay.
-/
namespace TagTemplate.Engine

inductive Operation where
  | new
  /-- An engine is made of a model and takes the place of the one there was. -/
  | ofModel (model : Table String)
  | insert (name value : String)
  | extend (entries : List (String × String))
  | render (template : String)
  | missingTags (template : String)

inductive Answer where
  | done
  | refused (error : ModelError)
  | rendered (result : Except RenderError String)
  | missing (result : Except RenderError (List String))

def step (engine : Engine) : Operation → Engine × Answer
  | .new => (empty, .done)
  | .ofModel model =>
    match Engine.ofModel model with
    | .ok engine' => (engine', .done)
    | .error e => (engine, .refused e)
  | .insert name value =>
    match engine.insert name value with
    | .ok engine' => (engine', .done)
    | .error e => (engine, .refused e)
  | .extend entries =>
    match engine.extend entries with
    | (engine', .ok ()) => (engine', .done)
    | (engine', .error e) => (engine', .refused e)
  | .render template => (engine, .rendered (engine.render template))
  | .missingTags template => (engine, .missing (engine.missingTags template))

/-- Whether a name is the first in byte order of those in a model that are no tag names. -/
structure IsLeastInvalid (model : Table String) (name : String) : Prop where
  mem : name ∈ model.toList.map Prod.fst
  invalid : isTagName name.toList = false
  least : ∀ other ∈ model.toList.map Prod.fst, isTagName other.toList = false →
    other = name ∨ Text.bytes name.toList < Text.bytes other.toList

inductive Step (engine : Engine) : Operation → Engine → Answer → Prop where
  | new : Step engine .new empty .done
  | adopt {model : Table String}
      (hvalid : ∀ entry ∈ model.toList, isTagName entry.1.toList = true) :
      Step engine (.ofModel model) ⟨model⟩ .done
  | keep {model : Table String} {name : String} (hleast : IsLeastInvalid model name) :
      Step engine (.ofModel model) engine (.refused (.invalidTagName name))
  | insert {name value : String} (hname : isTagName name.toList = true) :
      Step engine (.insert name value) ⟨engine.model.insert name value⟩ .done
  | refuse {name value : String} (hname : isTagName name.toList = false) :
      Step engine (.insert name value) engine (.refused (.invalidTagName name))
  | extend {entries : List (String × String)}
      (hvalid : ∀ entry ∈ entries, isTagName entry.1.toList = true) :
      Step engine (.extend entries) ⟨engine.model.insertAll entries⟩ .done
  | extendBefore {before after : List (String × String)} {name value : String}
      (hbefore : ∀ entry ∈ before, isTagName entry.1.toList = true)
      (hname : isTagName name.toList = false) :
      Step engine (.extend (before ++ (name, value) :: after)) ⟨engine.model.insertAll before⟩
        (.refused (.invalidTagName name))
  | render (template : String) :
      Step engine (.render template) engine (.rendered (engine.render template))
  | missingTags (template : String) :
      Step engine (.missingTags template) engine (.missing (engine.missingTags template))

variable {engine engine' : Engine} {name value : String} {model : Table String}
  {entries before after : List (String × String)} {operation : Operation} {answer : Answer}

theorem IsLeastInvalid.unique {other : String} (h : IsLeastInvalid model name)
    (hother : IsLeastInvalid model other) : name = other := by
  rcases h.least other hother.mem hother.invalid with heq | hlt
  · exact heq.symm
  · rcases hother.least name h.mem h.invalid with heq | hgt
    · exact heq
    · exact absurd hgt (List.lt_asymm hlt)

/-- Names are taken in byte order, so the first at fault is the least. -/
theorem isLeastInvalid_of_toList_eq (hmodel : model.toList = before ++ (name, value) :: after)
    (hbefore : ∀ entry ∈ before, isTagName entry.1.toList = true)
    (hname : isTagName name.toList = false) : IsLeastInvalid model name := by
  refine ⟨?_, hname, fun other hother hinvalid => ?_⟩
  · simp [hmodel]
  · obtain ⟨entry, hentry, rfl⟩ := List.mem_map.1 hother
    rw [hmodel, List.mem_append, List.mem_cons] at hentry
    rcases hentry with hmem | rfl | hmem
    · rw [hbefore entry hmem] at hinvalid
      cases hinvalid
    · exact .inl rfl
    · exact .inr (Text.bytes_toList_lt_iff.2 ((Table.lt_of_toList_eq hmodel).2 entry hmem))

theorem IsLeastInvalid.not_forall (h : IsLeastInvalid model name) :
    ¬∀ entry ∈ model.toList, isTagName entry.1.toList = true := by
  intro hvalid
  obtain ⟨entry, hentry, rfl⟩ := List.mem_map.1 h.mem
  have hinvalid := h.invalid
  rw [hvalid entry hentry] at hinvalid
  cases hinvalid

theorem ofModel_of_isLeastInvalid (h : IsLeastInvalid model name) :
    Engine.ofModel model = .error (.invalidTagName name) := by
  rcases forall_isTagName_or_exists_first model.toList with
    hvalid | ⟨before, first, value, after, hmodel, hbefore, hfirst⟩
  · exact absurd hvalid h.not_forall
  · obtain rfl := h.unique (isLeastInvalid_of_toList_eq hmodel hbefore hfirst)
    rw [Engine.ofModel, hmodel, extend_append_cons hbefore hfirst]

theorem Step.step_eq (h : Step engine operation engine' answer) :
    engine.step operation = (engine', answer) := by
  cases h with
  | new => rfl
  | adopt hvalid => rw [step, ofModel_eq_ok_iff.2 ⟨hvalid, rfl⟩]
  | keep hleast => rw [step, ofModel_of_isLeastInvalid hleast]
  | insert hname => rw [step, insert_of_isTagName hname]
  | refuse hname => rw [step, insert_of_not_isTagName hname]
  | extend hvalid => rw [step, extend_of_forall_isTagName hvalid]
  | extendBefore hbefore hname => rw [step, extend_append_cons hbefore hname]
  | render template => rfl
  | missingTags template => rfl

/-- Some rule covers every operation. -/
theorem exists_step (engine : Engine) (operation : Operation) :
    ∃ engine' answer, Step engine operation engine' answer := by
  cases operation with
  | new => exact ⟨_, _, .new⟩
  | ofModel model =>
    rcases forall_isTagName_or_exists_first model.toList with
      hvalid | ⟨before, name, value, after, hmodel, hbefore, hname⟩
    · exact ⟨_, _, .adopt hvalid⟩
    · exact ⟨_, _, .keep (isLeastInvalid_of_toList_eq hmodel hbefore hname)⟩
  | insert name value =>
    cases hname : isTagName name.toList with
    | false => exact ⟨_, _, .refuse hname⟩
    | true => exact ⟨_, _, .insert hname⟩
  | extend entries =>
    rcases forall_isTagName_or_exists_first entries with
      hvalid | ⟨before, name, value, after, rfl, hbefore, hname⟩
    · exact ⟨_, _, .extend hvalid⟩
    · exact ⟨_, _, .extendBefore hbefore hname⟩
  | render template => exact ⟨_, _, .render template⟩
  | missingTags template => exact ⟨_, _, .missingTags template⟩

/-- An operation does what the rules say and nothing else. -/
theorem step_eq_iff :
    engine.step operation = (engine', answer) ↔ Step engine operation engine' answer := by
  refine ⟨fun h => ?_, Step.step_eq⟩
  -- The rule that covers the operation is the one that was used, as a step has one outcome.
  obtain ⟨engine'', answer', hstep⟩ := exists_step engine operation
  rw [hstep.step_eq] at h
  cases h
  exact hstep

end TagTemplate.Engine
