import Mathlib.Data.List.Induction
import Mathlib.Data.List.TakeWhile
import TagTemplate.Proofs.Engine.Step
import TagTemplate.Proofs.Template.Marker

/-!
# Runs of an engine

Whatever an engine is asked to do, and in whatever order, it binds tag names alone, each to the
value of the last binding that was accepted since it was last made anew. So each name that it binds
can be used in a template.
-/
namespace TagTemplate.Engine

def run (operations : List Operation) : Engine :=
  operations.foldl (fun engine operation => (engine.step operation).1) empty

/-- The bindings that were accepted since the engine was last made anew, given those before an
operation. Only tag names are accepted, a model as a whole and other bindings up to the first at
fault. -/
def Operation.record (bindings : List (String × String)) :
    Operation → List (String × String)
  | new => []
  | ofModel model =>
    if ∀ entry ∈ model.toList, isTagName entry.1.toList = true then model.toList else bindings
  | insert name value =>
    if isTagName name.toList then bindings ++ [(name, value)] else bindings
  | extend entries => bindings ++ entries.takeWhile fun entry => isTagName entry.1.toList
  | render _ => bindings
  | missingTags _ => bindings

def accepted (operations : List Operation) : List (String × String) :=
  operations.foldl Operation.record []

variable {engine engine' : Engine} {operation : Operation} {answer : Answer}
  {bindings : List (String × String)}

theorem run_snoc (operations : List Operation) (operation : Operation) :
    run (operations ++ [operation]) = ((run operations).step operation).1 := by
  rw [run, List.foldl_append]
  rfl

theorem accepted_snoc (operations : List Operation) (operation : Operation) :
    accepted (operations ++ [operation]) = operation.record (accepted operations) := by
  rw [accepted, List.foldl_append]
  rfl

theorem takeWhile_isTagName_append_cons {before after : List (String × String)}
    {name value : String} (hbefore : ∀ entry ∈ before, isTagName entry.1.toList = true)
    (hname : isTagName name.toList = false) :
    (before ++ (name, value) :: after).takeWhile (fun entry => isTagName entry.1.toList) =
      before := by
  rw [List.takeWhile_append_of_pos hbefore, List.takeWhile_cons_of_neg (by simp [hname]),
    List.append_nil]

/-- A step keeps the record of an engine right. -/
theorem Step.model_eq_ofList (h : Step engine operation engine' answer)
    (hmodel : engine.model = Table.ofList bindings) :
    engine'.model = Table.ofList (operation.record bindings) := by
  cases h with
  | new => rfl
  | adopt hvalid =>
    rw [Operation.record, if_pos hvalid]
    exact (Table.ofList_toList _).symm
  | keep hleast => rw [Operation.record, if_neg hleast.not_forall, hmodel]
  | insert hname =>
    rw [Operation.record, if_pos hname, Table.ofList, Table.insertAll_append, hmodel]
    rfl
  | refuse hname => rw [Operation.record, if_neg (by simp [hname]), hmodel]
  | extend hvalid =>
    rw [Operation.record, List.takeWhile_eq_self_iff.2 hvalid, Table.ofList,
      Table.insertAll_append, hmodel]
    rfl
  | extendBefore hbefore hname =>
    rw [Operation.record, takeWhile_isTagName_append_cons hbefore hname, Table.ofList,
      Table.insertAll_append, hmodel]
    rfl
  | render template => exact hmodel
  | missingTags template => exact hmodel

theorem forall_isTagName_record (h : ∀ entry ∈ bindings, isTagName entry.1.toList = true) :
    ∀ entry ∈ operation.record bindings, isTagName entry.1.toList = true := by
  cases operation with
  | new => simp [Operation.record]
  | ofModel model =>
    rw [Operation.record]
    split_ifs with hvalid
    · exact hvalid
    · exact h
  | insert name value =>
    rw [Operation.record]
    split_ifs with hname
    · rw [List.forall_mem_append, List.forall_mem_singleton]
      exact ⟨h, hname⟩
    · exact h
  | extend entries =>
    rw [Operation.record, List.forall_mem_append]
    refine ⟨h, fun entry hentry => ?_⟩
    have hname := List.mem_takeWhile_imp hentry
    exact hname
  | render template => exact h
  | missingTags template => exact h

theorem model_run (operations : List Operation) :
    (run operations).model = Table.ofList (accepted operations) := by
  induction operations using List.reverseRecOn with
  | nil => rfl
  | append_singleton operations operation ih =>
    obtain ⟨engine', answer, hstep⟩ := exists_step (run operations) operation
    rw [run_snoc, accepted_snoc, hstep.step_eq]
    exact hstep.model_eq_ofList ih

theorem forall_isTagName_accepted (operations : List Operation) :
    ∀ entry ∈ accepted operations, isTagName entry.1.toList = true := by
  induction operations using List.reverseRecOn with
  | nil => simp [accepted]
  | append_singleton operations operation ih =>
    rw [accepted_snoc]
    exact forall_isTagName_record ih

theorem lookup_run (operations : List Operation) (name : String) :
    (run operations).model.lookup name = lastSome? (Table.valueAt? name) (accepted operations) := by
  rw [model_run, Table.lookup_ofList]

theorem isTagName_of_lookup_run {operations : List Operation} {name value : String}
    (h : (run operations).model.lookup name = some value) : isTagName name.toList = true := by
  rw [lookup_run] at h
  obtain ⟨entry, hentry, hvalue⟩ := exists_mem_of_lastSome? h
  obtain rfl := Table.valueAt?_eq_some_iff.1 hvalue
  exact forall_isTagName_accepted operations _ hentry

/-- After any run an engine obeys the rules, binds what was accepted last, and gives the value of
each name that it binds in every marker for it. -/
theorem run_lawful (operations : List Operation) :
    (∀ operation engine answer,
      (run operations).step operation = (engine, answer) ↔
        Step (run operations) operation engine answer) ∧
    (∀ name, (run operations).model.lookup name =
      lastSome? (Table.valueAt? name) (accepted operations)) ∧
    ∀ name value, (run operations).model.lookup name = some value →
      isTagName name.toList = true ∧
      ∀ left right : String, Text.Blank left.toList → Text.Blank right.toList →
        (run operations).render (marker left name right) = .ok value := by
  refine ⟨fun _ _ _ => step_eq_iff, lookup_run operations, fun name value h => ?_⟩
  have hname := isTagName_of_lookup_run h
  exact ⟨hname, (Model.fills_iff hname).2 h⟩

theorem run_lawful_sample :
    (run [.ofModel (Table.ofList [("a", "1"), ("b", "2")]), .insert "c d" "3",
        .extend [("b", "4"), ("9", "5"), ("a", "6")],
        .ofModel (Table.ofList [("\u00e9", "7"), ("Z ", "8")])]).render
      (marker "\u2003" "b" "\n") = .ok "4" ∧
    Step (run [.insert "a" "1"]) (.ofModel (Table.ofList [("\u00e9", "7"), ("Z ", "8")]))
      (run [.insert "a" "1"]) (.refused (.invalidTagName "Z ")) :=
  ⟨((run_lawful _).2.2 "b" "4" (by decide)).2 "\u2003" "\n" (by decide) (by decide),
    ((run_lawful _).1 _ _ _).1 rfl⟩

end TagTemplate.Engine
