import TagTemplate.Proofs.Engine.Basic
import TagTemplate.Proofs.ModelFile.Change

/-!
# Runs of changes to a model

Documents are laid over a model and assignments are applied to it, in any order. A change is taken
as a whole or not at all, and what it binds does not depend on the model. So a name has the value of
the last change that binds it, only tag names are given values, and an engine can always be made of
the result.
-/
namespace TagTemplate.ModelFile

def apply (model : ModelFile) : Change → Except LoadError ModelFile
  | .yaml text => (ofYaml text).map model.merge
  | .json text => (ofJson text).map model.merge
  | .set text => model.set text

def next (model : ModelFile) (change : Change) : ModelFile :=
  match model.apply change with
  | .ok model' => model'
  | .error _ => model

def run (changes : List Change) : ModelFile := changes.foldl next empty

section Given

variable {α : Type u} {ε : Type} {layer : α → Except ε ModelFile} {name value : String} {a : α}

def given? (layer : α → Except ε ModelFile) (name : String) (a : α) : Option String :=
  (layer a).toOption.bind fun file => file.values.lookup name

theorem given?_eq_some_iff : given? layer name a = some value ↔
    ∃ file, layer a = .ok file ∧ file.values.lookup name = some value := by
  simp only [given?, Option.bind_eq_some_iff, Result.toOption_eq_some_iff]

end Given

theorem Change.given?_file_eq_some_iff {name value : String} {change : Change} :
    given? file name change = some value ↔ change.Binds name value := by
  rw [given?_eq_some_iff, exists_lookup_file_iff_binds]

variable {model : ModelFile} {changes : List Change} {name value : String} {change : Change}
  {e : LoadError}

theorem apply_eq (model : ModelFile) (change : Change) :
    model.apply change = change.file.map model.merge := by
  cases change with
  | yaml text => rfl
  | json text => rfl
  | set text =>
    rw [apply, ModelFile.set, Change.file, Result.map_map]
    rfl

/-- Whether a change can be made does not depend on the model. -/
theorem exists_apply_iff : (∃ model', model.apply change = .ok model') ↔ change.Sound := by
  rw [← Change.exists_file_iff_sound, apply_eq]
  cases change.file <;> simp

theorem next_of_error (h : model.apply change = .error e) : model.next change = model := by
  rw [next, h]

theorem run_snoc (changes : List Change) (change : Change) :
    run (changes ++ [change]) = (run changes).next change := by
  rw [run, List.foldl_append]
  rfl

theorem lookup_values_merge (model file : ModelFile) (name : String) :
    (model.merge file).values.lookup name =
      (file.values.lookup name).or (model.values.lookup name) :=
  Table.lookup_merge model.values file.values name

/-- A change lays what it gives over what there was. -/
theorem lookup_next (model : ModelFile) (change : Change) (name : String) :
    (model.next change).values.lookup name =
      (given? Change.file name change).or (model.values.lookup name) := by
  rw [next, apply_eq, given?]
  cases change.file with
  | ok file => exact lookup_values_merge model file name
  | error e => rfl

theorem lookup_run (changes : List Change) (name : String) :
    (run changes).values.lookup name = lastSome? (given? Change.file name) changes :=
  calc (run changes).values.lookup name
    _ = (lastSome? (given? Change.file name) changes).or (empty.values.lookup name) :=
      foldl_eq_lastSome?_or (fun model : ModelFile => model.values.lookup name)
        (fun model change => lookup_next model change name) empty changes
    _ = lastSome? (given? Change.file name) changes := Option.or_none

theorem lookup_run_eq_some_iff : (run changes).values.lookup name = some value ↔
    LastGives (fun change : Change => change.Binds name) changes value := by
  rw [lookup_run]
  exact lastSome?_eq_some_iff_lastGives fun _ _ => Change.given?_file_eq_some_iff

theorem isTagName_of_lookup_run (h : (run changes).values.lookup name = some value) :
    isTagName name.toList = true := by
  obtain ⟨-, change, -, -, hbinds, -⟩ := lookup_run_eq_some_iff.1 h
  exact hbinds.isTagName

theorem ofModel_run (changes : List Change) :
    Engine.ofModel (run changes).values = .ok ⟨(run changes).values⟩ := by
  refine Engine.ofModel_eq_ok_iff.2 ⟨fun entry hentry => ?_, rfl⟩
  exact isTagName_of_lookup_run (Table.mem_toList_iff.1 hentry)

/-- After any run of changes a name has the value of the last change that binds it. A change fails
unless all of it is sound, and then it changes nothing. An engine can be made of the result. -/
theorem run_last_wins (changes : List Change) :
    (∀ name value, (run changes).values.lookup name = some value →
      isTagName name.toList = true) ∧
    (∀ change, (∃ model, (run changes).apply change = .ok model) ↔ change.Sound) ∧
    (∀ change e, (run changes).apply change = .error e →
      run (changes ++ [change]) = run changes) ∧
    (∀ name value, (run changes).values.lookup name = some value ↔
      LastGives (fun change : Change => change.Binds name) changes value) ∧
    Engine.ofModel (run changes).values = .ok ⟨(run changes).values⟩ := by
  refine ⟨fun _ _ => isTagName_of_lookup_run, fun _ => exists_apply_iff, fun change e h => ?_,
    fun _ _ => lookup_run_eq_some_iff, ofModel_run changes⟩
  rw [run_snoc, next_of_error h]

theorem run_last_wins_sample :
    isTagName "b".toList = true ∧
      run ([.yaml "a: 1\nb: x", .set " b =y"] ++ [.json "\x7b\"a\": 2, \"c d\": 3\x7d"]) =
        run [.yaml "a: 1\nb: x", .set " b =y"] ∧
      (run [.yaml "a: 1\nb: x", .set " b =y"]).values.lookup "a" = some "1" ∧
      (run [.yaml "a: 1\nb: x", .set " b =y"]).values.lookup "b" = some "y" ∧
      ∃ model, (run [.set "a=1"]).apply (.json "\x7b\"a\": [], \"a\": true\x7d") = .ok model := by
  have hset : Assigns " b =y" "b" "y" := ⟨by decide, " ", " ", by decide, by decide, by decide⟩
  have hjson : (Change.json "\x7b\"a\": [], \"a\": true\x7d").Reads
      [("a", .sequence []), ("a", .bool true)] := rfl
  obtain ⟨hnames, -, hfails, hlookup, -⟩ := run_last_wins [.yaml "a: 1\nb: x", .set " b =y"]
  have hb := (hlookup "b" "y").2 ⟨[.yaml "a: 1\nb: x"], .set " b =y", [], rfl, .assignment hset,
    by simp⟩
  refine ⟨hnames "b" "y" hb, hfails _ (.invalidTagName "c d") rfl, ?_, hb, ?_⟩
  · refine (hlookup "a" "1").2 ⟨[], .yaml "a: 1\nb: x", [.set " b =y"], rfl,
      Change.binds_yaml_sample, fun later hlater other hbinds => ?_⟩
    rw [List.mem_singleton.1 hlater] at hbinds
    cases hbinds with
    | document hread => exact hread
    | assignment h => exact absurd (Assigns.unique hset h).1 (by decide)
  · exact ((run_last_wins _).2.1 _).2 (.document hjson (exists_ofDocument_iff.1 ⟨_, rfl⟩))

end TagTemplate.ModelFile
