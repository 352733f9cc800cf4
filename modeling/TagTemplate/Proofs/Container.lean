import TagTemplate.Proofs.Engine.Basic
import TagTemplate.Proofs.Table.Reordering
import TagTemplate.Proofs.Text.Order

/-!
# Containers of models

A template is rendered by asking the model for names and by nothing else. So models of different
kinds render it alike if they give the same values, and a reference to a model or an object made of
it renders as the model does. A hash map and a table into which the same entries are put give the
same values, those of the last entries, whatever the hash function is. And an engine ends in the
same table in whichever order bindings of different names come in.
-/
namespace TagTemplate

section Lookup

variable {M : Type u} [Model M] {model : M} {M' : Type v} [Model M'] {model' : M'}

theorem fill_eq_of_lookup_eq (h : ∀ name, Model.lookup model name = Model.lookup model' name)
    (source : String) (results : List (Except RenderError Segment)) :
    fill model source results = fill model' source results := by
  induction results with
  | nil => rfl
  | cons result results ih =>
    match result with
    | .error e => rfl
    | .ok (.text content) => rw [fill, fill, ih]
    | .ok (.tag tag) => rw [fill, fill, h tag.name, ih]

/-- All that rendering takes from a model is the values that it gives to names. -/
theorem render_eq_of_lookup_eq (h : ∀ name, Model.lookup model name = Model.lookup model' name)
    (template : String) : render model template = render model' template := by
  rw [render, render, fill_eq_of_lookup_eq h]

theorem render_reference (model : M) (template : String) :
    render (Model.Reference.mk model) template = render model template :=
  render_eq_of_lookup_eq (Model.lookup_reference model) template

theorem render_object (model : M) (template : String) :
    render (Model.Object.mk model) template = render model template :=
  render_eq_of_lookup_eq (Model.lookup_object model) template

/-- Whether a template is rendered with a result, in whichever way the model is handed over. -/
structure RendersAs (model : M) (template : String) (result : Except RenderError String) :
    Prop where
  direct : render model template = result
  reference : render (Model.Reference.mk model) template = result
  object : render (Model.Object.mk model) template = result
  objectReference : render (Model.Reference.mk (Model.Object.mk model)) template = result

theorem rendersAs_of_render_eq {template : String} {result : Except RenderError String}
    (h : render model template = result) : RendersAs model template result where
  direct := h
  reference := by rw [render_reference, h]
  object := by rw [render_object, h]
  objectReference := by rw [render_reference, render_object, h]

end Lookup

section Hash

variable [Hashable String]

theorem getElem?_insert_entry (m : Std.HashMap String String) (entry : String × String)
    (name : String) :
    (m.insert entry.1 entry.2)[name]? = (Table.valueAt? name entry).or m[name]? := by
  rw [Std.HashMap.getElem?_insert, Table.valueAt?]
  by_cases h : entry.1 = name
  · simp [h]
  · simp [h]

theorem lookup_hashOfList (entries : List (String × String)) (name : String) :
    Model.lookup (Model.hashOfList entries) name = lastSome? (Table.valueAt? name) entries :=
  calc (Model.hashOfList entries)[name]?
    _ = (lastSome? (Table.valueAt? name) entries).or (∅ : Std.HashMap String String)[name]? :=
      foldl_eq_lastSome?_or (fun m : Std.HashMap String String => m[name]?)
        (fun m entry => getElem?_insert_entry m entry name) ∅ entries
    _ = lastSome? (Table.valueAt? name) entries := by
      rw [Std.HashMap.getElem?_empty, Option.or_none]

theorem lookup_hashOfList_eq_lookup_ofList (entries : List (String × String)) (name : String) :
    Model.lookup (Model.hashOfList entries) name = Model.lookup (Table.ofList entries) name :=
  (lookup_hashOfList entries name).trans (Table.lookup_ofList entries name).symm

end Hash

namespace Engine

variable {entries other : List (String × String)}

/-- Bindings of different names may come in any order. -/
theorem extend_eq_of_isReordering (hvalid : ∀ entry ∈ entries, isTagName entry.1.toList = true)
    (h : Table.IsReordering entries other) (engine : Engine) :
    engine.extend other = engine.extend entries := by
  have hvalid' : ∀ entry ∈ other, isTagName entry.1.toList = true := fun entry hentry =>
    hvalid entry (h.mem_iff.1 hentry)
  rw [extend_of_forall_isTagName hvalid, extend_of_forall_isTagName hvalid', h.insertAll_eq]

theorem mem_toList_extend_iff (hvalid : ∀ entry ∈ entries, isTagName entry.1.toList = true)
    {engine : Engine} {entry : String × String} :
    entry ∈ (engine.extend entries).1.model.toList ↔
      (lastSome? (Table.valueAt? entry.1) entries).or (engine.model.lookup entry.1) =
        some entry.2 := by
  rw [extend_of_forall_isTagName hvalid, Table.mem_toList_iff, Table.lookup_insertAll]

theorem pairwise_bytes_toList (engine : Engine) :
    engine.model.toList.Pairwise fun a b => Text.bytes a.1.toList < Text.bytes b.1.toList :=
  engine.model.sorted.imp Text.bytes_toList_lt_iff.2

end Engine

/-- Neither the container of a model matters nor the order in which names come in: a hash map and a
table give each name the value of its last entry, and render each template alike in whichever way
they are handed over. And an engine takes all bindings of tag names and ends in one and the same
model whenever those of equal names keep their order: in byte order of the names, hence each name
once, with the last of its new values or else the one that it had. -/
theorem containers_agree [Hashable String] (entries : List (String × String)) :
    (∀ name,
      Model.lookup (Model.hashOfList entries) name = lastSome? (Table.valueAt? name) entries ∧
      Model.lookup (Table.ofList entries) name = lastSome? (Table.valueAt? name) entries) ∧
    (∀ template, ∃ result,
      RendersAs (Model.hashOfList entries) template result ∧
      RendersAs (Table.ofList entries) template result) ∧
    ((∀ entry ∈ entries, isTagName entry.1.toList = true) →
      ∀ other, Table.IsReordering entries other → ∀ engine : Engine,
        engine.extend other = engine.extend entries ∧
        (engine.extend entries).2 = .ok () ∧
        ((engine.extend entries).1.model.toList.Pairwise fun a b =>
          Text.bytes a.1.toList < Text.bytes b.1.toList) ∧
        ∀ name value, (name, value) ∈ (engine.extend entries).1.model.toList ↔
          (lastSome? (Table.valueAt? name) entries).or (engine.model.lookup name) =
            some value) := by
  refine ⟨fun name => ⟨?_, ?_⟩, fun template => ⟨render (Table.ofList entries) template, ?_, ?_⟩,
    fun hvalid other hother engine => ⟨?_, ?_, ?_, ?_⟩⟩
  · exact lookup_hashOfList entries name
  · exact Table.lookup_ofList entries name
  · exact rendersAs_of_render_eq
      (render_eq_of_lookup_eq (lookup_hashOfList_eq_lookup_ofList entries) template)
  · exact rendersAs_of_render_eq rfl
  · exact Engine.extend_eq_of_isReordering hvalid hother engine
  · rw [Engine.extend_of_forall_isTagName hvalid]
  · exact Engine.pairwise_bytes_toList _
  · exact fun name value => Engine.mem_toList_extend_iff hvalid

theorem containers_agree_sample :
    -- The names are kept apart also where they all have one hash.
    Model.lookup (@Model.hashOfList ⟨fun _ => 0⟩ [("b", "1"), ("a", "2"), ("b", "3")]) "b" =
      some "3" ∧
    Table.IsReordering [("b", "1"), ("a", "2"), ("b", "3")] [("a", "2"), ("b", "1"), ("b", "3")] ∧
    (⟨Table.ofList [("c", "0"), ("a", "9")]⟩ : Engine).extend
        [("a", "2"), ("b", "1"), ("b", "3")] =
      (⟨Table.ofList [("c", "0"), ("a", "9")]⟩ : Engine).extend
        [("b", "1"), ("a", "2"), ("b", "3")] := by
  have hreordering : Table.IsReordering [("b", "1"), ("a", "2"), ("b", "3")]
      [("a", "2"), ("b", "1"), ("b", "3")] :=
    ⟨Equiv.swap (0 : Fin 3) 1, by decide, by decide⟩
  refine ⟨?_, hreordering, ?_⟩
  · exact ((@containers_agree ⟨fun _ => 0⟩ _).1 "b").1
  · exact ((containers_agree _).2.2 (by decide) _ hreordering _).1

end TagTemplate
