import TagTemplate.Proofs.Command.Check
import TagTemplate.Proofs.Command.Files
import TagTemplate.Proofs.Command.OneSided
import TagTemplate.Proofs.ModelFile.Run

/-!
# Layers of a command's model

The model of a command is laid over in two rounds, first by the model files and then by the
assignments, and in each round by one after the other until one of them fails. So a name has the
value of the last assignment to it, or else that in the last file that defines it, and an error is
that of the first layer at fault. No layer brings in anything but tag names, so there always is an engine
for the result.
-/
namespace TagTemplate

open Directory

namespace ModelFile

def overlay {α : Type u} (layer : α → Except Report ModelFile) (model : ModelFile) :
    List α → Except Report ModelFile
  | [] => .ok model
  | a :: rest => (layer a).bind fun file => overlay layer (model.merge file) rest

section Overlay

variable {α : Type u} {layer : α → Except Report ModelFile} {model result : ModelFile}
  {items : List α} {name : String} {report : Report}

theorem exists_overlay_iff :
    (∃ result, overlay layer model items = .ok result) ↔ ∀ a ∈ items, ∃ file, layer a = .ok file := by
  induction items generalizing model with
  | nil => simp [overlay]
  | cons a items ih =>
    rw [overlay, List.forall_mem_cons]
    cases hlayer : layer a with
    | error report => simp
    | ok file => simp [ih]

theorem overlay_append (layer : α → Except Report ModelFile) (model : ModelFile)
    (before after : List α) :
    overlay layer model (before ++ after) =
      (overlay layer model before).bind fun model => overlay layer model after := by
  induction before generalizing model with
  | nil => rfl
  | cons a before ih =>
    rw [List.cons_append, overlay, overlay]
    cases layer a with
    | error report => rfl
    | ok file => exact ih _

theorem overlay_append_cons {before after : List α} {a : α}
    (hbefore : ∀ b ∈ before, ∃ file, layer b = .ok file) (hfault : layer a = .error report) :
    overlay layer model (before ++ a :: after) = .error report := by
  obtain ⟨result, hresult⟩ : ∃ result, overlay layer model before = .ok result :=
    exists_overlay_iff.2 hbefore
  rw [overlay_append, hresult, Result.bind_ok, overlay, hfault, Result.bind_error]

/-- The first layer at fault is the one that is reported. -/
theorem overlay_eq_error_iff :
    overlay layer model items = .error report ↔
      ∃ before a after, items = before ++ a :: after ∧
        (∀ b ∈ before, ∃ file, layer b = .ok file) ∧ layer a = .error report := by
  constructor
  · intro h
    rcases forall_or_exists_first (fun a => ∃ file, layer a = .ok file) items with
      hall | ⟨before, a, after, rfl, hbefore, ha⟩
    · obtain ⟨result, hresult⟩ := exists_overlay_iff.2 hall
      rw [hresult] at h
      cases h
    · cases hfault : layer a with
      | ok file => exact absurd ⟨file, hfault⟩ ha
      | error report' =>
        rw [overlay_append_cons hbefore hfault, Except.error.injEq] at h
        exact ⟨before, a, after, rfl, hbefore, h ▸ hfault⟩
  · rintro ⟨before, a, after, rfl, hbefore, hfault⟩
    exact overlay_append_cons hbefore hfault

/-- Of the layers that give a value to a name the last one counts. -/
theorem lookup_of_overlay (h : overlay layer model items = .ok result) (name : String) :
    result.values.lookup name =
      (lastSome? (given? layer name) items).or (model.values.lookup name) := by
  induction items generalizing model with
  | nil =>
    rw [← Except.ok.inj h]
    rfl
  | cons a items ih =>
    obtain ⟨file, hfile, h⟩ := Result.bind_eq_ok_iff.1 h
    have hgiven : given? layer name a = file.values.lookup name := by
      rw [given?, hfile]
      rfl
    rw [ih h, lastSome?_cons, hgiven, Option.or_assoc, lookup_values_merge]

end Overlay

end ModelFile

open ModelFile (Loads Defines FailsToLoad)

/-- The report of the first of some model files and assignments that is at fault. All files are
loaded before an assignment is looked at. -/
inductive FirstFault (d : Directory) (models assignments : List String) : Report → Prop where
  | file {before after : List String} {path : String} {e : LoadError}
      (hmodels : models = before ++ path :: after) (hbefore : ∀ other ∈ before, Loads d other)
      (hfault : FailsToLoad d path e) :
      FirstFault d models assignments
        (e.report.context ("Failed to load model " ++ Text.quoted path))
  | assignment {before after : List String} {text : String} (hmodels : ∀ path ∈ models, Loads d path)
      (hassignments : assignments = before ++ text :: after)
      (hbefore : ∀ other ∈ before, ∃ name value, Assigns other name value)
      (hfault : ∀ name value, ¬Assigns text name value) :
      FirstFault d models assignments (LoadError.invalidAssignment text).report

theorem outermost_invalidAssignment (text : String) :
    (LoadError.invalidAssignment text).report.outermost =
      "Invalid assignment " ++ (Text.quoted text ++ ", expected NAME=VALUE") := by
  unfold LoadError.report LoadError.message
  exact String.append_assoc ..

/-- No fault reads like that of a model with a bad name. -/
theorem FirstFault.outermost_ne {d : Directory} {models assignments : List String}
    {report : Report} (h : FirstFault d models assignments report) :
    report.outermost ≠ "Invalid model" := by
  intro heq
  have hchars := congrArg String.toList heq
  cases h with
  | file hmodels hbefore hfault =>
    rw [Report.context, String.toList_append] at hchars
    have hhead := congrArg (List.take 1) hchars
    rw [List.take_append_of_le_length (by decide)] at hhead
    exact absurd hhead (by decide)
  | assignment hmodels hassignments hbefore hfault =>
    rw [outermost_invalidAssignment, String.toList_append] at hchars
    have hhead := congrArg (List.take 9) hchars
    rw [List.take_append_of_le_length (by decide)] at hhead
    exact absurd hhead (by decide)

namespace Sources

open ModelFile (overlay given?)

variable {d : Directory} {sources : Sources} {engine : Engine} {model result : ModelFile}
  {models assignments : List String} {report : Report} {path text name value : String}

def fileLayer (d : Directory) (path : String) : Except Report ModelFile :=
  (d.see (ModelFile.load host path)).mapError fun e =>
    e.report.context ("Failed to load model " ++ Text.quoted path)

def assignmentLayer (text : String) : Except Report ModelFile :=
  (ModelFile.Change.set text).file.mapError LoadError.report

theorem exists_fileLayer_iff : (∃ file, fileLayer d path = .ok file) ↔ Loads d path := by
  simp only [fileLayer, Result.mapError_eq_ok_iff, ModelFile.exists_see_load_iff_loads]

theorem fileLayer_eq_error_iff : fileLayer d path = .error report ↔
    ∃ e, FailsToLoad d path e ∧
      e.report.context ("Failed to load model " ++ Text.quoted path) = report := by
  simp only [fileLayer, Result.mapError_eq_error_iff, ModelFile.see_load_eq_error_iff]

theorem given?_fileLayer_eq_some_iff :
    given? (fileLayer d) name path = some value ↔ Defines d path name value := by
  simp only [ModelFile.given?_eq_some_iff, fileLayer, Result.mapError_eq_ok_iff,
    ModelFile.exists_lookup_see_load_iff_defines]

theorem exists_assignmentLayer_iff :
    (∃ file, assignmentLayer text = .ok file) ↔ ∃ name value, Assigns text name value := by
  simp only [assignmentLayer, Result.mapError_eq_ok_iff, ModelFile.Change.exists_file_iff_sound,
    ModelFile.Change.sound_set_iff]

theorem assignmentLayer_eq_error_iff : assignmentLayer text = .error report ↔
    (∀ name value, ¬Assigns text name value) ∧
      (LoadError.invalidAssignment text).report = report := by
  simp only [assignmentLayer, Result.mapError_eq_error_iff,
    ModelFile.Change.file_eq_error_iff_fails, ModelFile.Change.fails_set_iff, and_assoc,
    exists_and_left, exists_eq_left]

theorem given?_assignmentLayer_eq_some_iff :
    given? assignmentLayer name text = some value ↔ Assigns text name value := by
  simp only [ModelFile.given?_eq_some_iff, assignmentLayer, Result.mapError_eq_ok_iff,
    ModelFile.Change.exists_lookup_file_iff_binds, ModelFile.Change.binds_set_iff]

theorem see_loadModels (model : ModelFile) (paths : List String) :
    d.see (loadModels host model paths) = overlay (fileLayer d) model paths := by
  induction paths generalizing model with
  | nil => rfl
  | cons path paths ih =>
    rw [see_loadModels_cons, overlay, fileLayer]
    simp only [ih]

theorem assign_eq (model : ModelFile) (assignments : List String) :
    assign model assignments = overlay assignmentLayer model assignments := by
  induction assignments generalizing model with
  | nil => rfl
  | cons text assignments ih =>
    have hset : model.set text = (ModelFile.Change.set text).file.map model.merge :=
      ModelFile.apply_eq model (.set text)
    rw [assign_cons, hset, overlay, assignmentLayer]
    cases (ModelFile.Change.set text).file with
    | error e => rfl
    | ok file => exact ih _

/-- What is bound after both rounds. -/
theorem lookup_of_rounds (hmodel : overlay (fileLayer d) .empty models = .ok model)
    (hresult : overlay assignmentLayer model assignments = .ok result) :
    result.values.lookup name = some value ↔
      LastGives (fun text => Assigns text name) assignments value ∨
        (∀ text ∈ assignments, ∀ other, ¬Assigns text name other) ∧
          LastGives (fun path => Defines d path name) models value := by
  have hlookup : result.values.lookup name =
      (lastSome? (given? assignmentLayer name) assignments).or
        (lastSome? (given? (fileLayer d) name) models) := by
    rw [ModelFile.lookup_of_overlay hresult, ModelFile.lookup_of_overlay hmodel]
    congr 1
    exact Option.or_none
  have hassigned (text other : String) :
      given? assignmentLayer name text = some other ↔ Assigns text name other :=
    given?_assignmentLayer_eq_some_iff
  have hdefined (path other : String) :
      given? (fileLayer d) name path = some other ↔ Defines d path name other :=
    given?_fileLayer_eq_some_iff
  rw [hlookup, Option.or_eq_some_iff, lastSome?_eq_some_iff_lastGives hassigned,
    lastSome?_eq_none_iff_forall_not hassigned, lastSome?_eq_some_iff_lastGives hdefined]

theorem isTagName_of_rounds (hmodel : overlay (fileLayer d) .empty models = .ok model)
    (hresult : overlay assignmentLayer model assignments = .ok result)
    (hvalue : result.values.lookup name = some value) : isTagName name.toList = true := by
  rcases (lookup_of_rounds hmodel hresult).1 hvalue with
    ⟨-, text, -, -, hassigns, -⟩ | ⟨-, -, path, -, -, hdefines, -⟩
  · exact hassigns.1
  · exact hdefines.isTagName

/-- Loading has an engine for whatever the two rounds give. -/
theorem see_loadEngine_eq_map (d : Directory) (sources : Sources) :
    d.see (sources.loadEngine host) =
      ((overlay (fileLayer d) .empty sources.models).bind fun model =>
        overlay assignmentLayer model sources.assignments).map fun result => ⟨result.values⟩ := by
  rw [see_loadEngine, see_loadModels]
  cases hmodel : overlay (fileLayer d) .empty sources.models with
  | error report => rfl
  | ok model =>
    rw [Result.bind_ok, Result.bind_ok, assign_eq]
    cases hresult : overlay assignmentLayer model sources.assignments with
    | error report => rfl
    | ok result =>
      -- All that the rounds bind are tag names, so the last stage cannot fail.
      rw [Result.bind_ok, Result.map_ok, engineOf_eq_ok_iff]
      refine ⟨fun name hbinds => ?_, rfl⟩
      obtain ⟨value, hvalue⟩ := hbinds
      exact isTagName_of_rounds hmodel hresult hvalue

theorem exists_see_loadEngine_iff :
    (∃ engine, d.see (sources.loadEngine host) = .ok engine) ↔
      (∀ path ∈ sources.models, Loads d path) ∧
        ∀ text ∈ sources.assignments, ∃ name value, Assigns text name value := by
  simp only [← exists_fileLayer_iff, ← exists_assignmentLayer_iff]
  rw [see_loadEngine_eq_map]
  constructor
  · rintro ⟨engine, h⟩
    obtain ⟨result, hrounds, -⟩ := Result.map_eq_ok_iff.1 h
    obtain ⟨model, hmodel, hresult⟩ := Result.bind_eq_ok_iff.1 hrounds
    exact ⟨ModelFile.exists_overlay_iff.1 ⟨model, hmodel⟩,
      ModelFile.exists_overlay_iff.1 ⟨result, hresult⟩⟩
  · rintro ⟨hfiles, hassignments⟩
    obtain ⟨model, hmodel⟩ := ModelFile.exists_overlay_iff.2 hfiles
    obtain ⟨result, hresult⟩ := ModelFile.exists_overlay_iff.2 hassignments
    rw [hmodel, Result.bind_ok, hresult, Result.map_ok]
    exact ⟨_, rfl⟩

theorem lookup_of_see_loadEngine (h : d.see (sources.loadEngine host) = .ok engine) :
    engine.model.lookup name = some value ↔
      LastGives (fun text => Assigns text name) sources.assignments value ∨
        (∀ text ∈ sources.assignments, ∀ other, ¬Assigns text name other) ∧
          LastGives (fun path => Defines d path name) sources.models value := by
  rw [see_loadEngine_eq_map] at h
  obtain ⟨result, hrounds, rfl⟩ := Result.map_eq_ok_iff.1 h
  obtain ⟨model, hmodel, hresult⟩ := Result.bind_eq_ok_iff.1 hrounds
  exact lookup_of_rounds hmodel hresult

theorem firstFault_of_see_loadEngine (h : d.see (sources.loadEngine host) = .error report) :
    FirstFault d sources.models sources.assignments report := by
  rw [see_loadEngine_eq_map, Result.map_eq_error_iff] at h
  cases hmodel : overlay (fileLayer d) .empty sources.models with
  | error report' =>
    rw [hmodel, Result.bind_error] at h
    obtain rfl := Except.error.inj h
    obtain ⟨before, path, after, hmodels, hbefore, hfault⟩ :=
      ModelFile.overlay_eq_error_iff.1 hmodel
    obtain ⟨e, he, rfl⟩ := fileLayer_eq_error_iff.1 hfault
    exact .file hmodels (fun other hother => exists_fileLayer_iff.1 (hbefore other hother)) he
  | ok model =>
    rw [hmodel, Result.bind_ok] at h
    have hfiles := ModelFile.exists_overlay_iff.1 ⟨model, hmodel⟩
    obtain ⟨before, text, after, hassignments, hbefore, hfault⟩ :=
      ModelFile.overlay_eq_error_iff.1 h
    obtain ⟨hnone, rfl⟩ := assignmentLayer_eq_error_iff.1 hfault
    exact .assignment (fun path hpath => exists_fileLayer_iff.1 (hfiles path hpath)) hassignments
      (fun other hother => exists_assignmentLayer_iff.1 (hbefore other hother)) hnone

theorem see_loadEngine_of_firstFault (h : FirstFault d sources.models sources.assignments report) :
    d.see (sources.loadEngine host) = .error report := by
  rw [see_loadEngine_eq_map, Result.map_eq_error_iff]
  cases h with
  | @file before after path e hmodels hbefore hfault =>
    have hmodel : overlay (fileLayer d) .empty sources.models =
        .error (e.report.context ("Failed to load model " ++ Text.quoted path)) :=
      ModelFile.overlay_eq_error_iff.2 ⟨before, path, after, hmodels,
        fun other hother => exists_fileLayer_iff.2 (hbefore other hother),
        fileLayer_eq_error_iff.2 ⟨e, hfault, rfl⟩⟩
    rw [hmodel, Result.bind_error]
  | @assignment before after text hmodels hassignments hbefore hfault =>
    obtain ⟨model, hmodel⟩ : ∃ model, overlay (fileLayer d) .empty sources.models = .ok model :=
      ModelFile.exists_overlay_iff.2 fun path hpath => exists_fileLayer_iff.2 (hmodels path hpath)
    rw [hmodel, Result.bind_ok]
    exact ModelFile.overlay_eq_error_iff.2 ⟨before, text, after, hassignments,
      fun other hother => exists_assignmentLayer_iff.2 (hbefore other hother),
      assignmentLayer_eq_error_iff.2 ⟨hfault, rfl⟩⟩

end Sources

open Arguments
open ModelFile (given?)

/-- The model of a command whose options for it stand on one side. A file gives what its bytes define
and an assignment what its text assigns. -/
theorem loadEngine_layers (d : Directory) {options : List SourceOption} {arguments : List String}
    {sources : Sources} {command : Command} (hline : OneSided options arguments)
    (hread : read arguments = .ok ⟨sources, command⟩) :
    ((∃ engine, d.see (sources.loadEngine host) = .ok engine) ↔
      (∀ path ∈ modelsOf options, Loads d path) ∧
        ∀ text ∈ assignmentsOf options, ∃ name value, Assigns text name value) ∧
    (∀ engine, d.see (sources.loadEngine host) = .ok engine → ∀ name value,
      engine.model.lookup name = some value ↔
        LastGives (fun text => Assigns text name) (assignmentsOf options) value ∨
          (∀ text ∈ assignmentsOf options, ∀ other, ¬Assigns text name other) ∧
            LastGives (fun path => Defines d path name) (modelsOf options) value) ∧
    (∀ report, d.see (sources.loadEngine host) = .error report ↔
      FirstFault d (modelsOf options) (assignmentsOf options) report) ∧
    (∀ report, d.see (sources.loadEngine host) = .error report →
      report.outermost ≠ "Invalid model") ∧
    ∀ options' arguments' sources' command', OneSided options' arguments' →
      read arguments' = .ok ⟨sources', command'⟩ → modelsOf options' = modelsOf options →
      assignmentsOf options' = assignmentsOf options →
      d.see (sources'.loadEngine host) = d.see (sources.loadEngine host) := by
  obtain ⟨hmodels, hassignments⟩ := hline.sources_eq hread
  rw [← hmodels, ← hassignments]
  refine ⟨Sources.exists_see_loadEngine_iff, fun _ h _ _ => Sources.lookup_of_see_loadEngine h,
    fun _ => ⟨Sources.firstFault_of_see_loadEngine, Sources.see_loadEngine_of_firstFault⟩,
    fun _ h => (Sources.firstFault_of_see_loadEngine h).outermost_ne, ?_⟩
  intro options' arguments' sources' command' hline' hread' hsame hsame'
  obtain ⟨hmodels', hassignments'⟩ := hline'.sources_eq hread'
  rw [Sources.see_loadEngine_eq_map, Sources.see_loadEngine_eq_map, hmodels', hassignments', hsame,
    hsame']

def layeredDirectory : Directory :=
  ⟨.ofList [("m", "a: 1\nb: x".toUTF8), ("n.json", "\x7b\"b\": 3\x7d".toUTF8)], .empty⟩

theorem loadEngine_layers_sample :
    ∃ engine, layeredDirectory.see (Sources.loadEngine host ⟨["m", "n.json"], ["c=9"], none⟩) =
        .ok engine ∧
      engine.model.lookup "a" = some "1" ∧ engine.model.lookup "b" = some "3" ∧
      engine.model.lookup "c" = some "9" := by
  have hline : OneSided [.assignment "c=9", .model "m", .model "n.json"]
      ([] ++ "tags" :: ["-sc=9", "-mm", "--check", "--model=n.json"]) := by
    refine .after .tags .nil ⟨rfl, rfl⟩ ?_
    apply SpellsIn.source (.attached (by decide))
    apply SpellsIn.source (.attached (by decide))
    apply SpellsIn.check (by decide)
    exact .source (.attached (by decide)) .nil
  have hread : read ["tags", "-sc=9", "-mm", "--check", "--model=n.json"] =
      .ok ⟨⟨["m", "n.json"], ["c=9"], none⟩, .tags true⟩ := by decide +kernel
  have hyaml : ModelFile.Holds layeredDirectory "m" (.yaml "a: 1\nb: x") :=
    ⟨"a: 1\nb: x".toUTF8, "a: 1\nb: x", by decide +kernel, by decide +kernel, rfl⟩
  have hjson : ModelFile.Holds layeredDirectory "n.json" (.json "\x7b\"b\": 3\x7d") :=
    ⟨"\x7b\"b\": 3\x7d".toUTF8, "\x7b\"b\": 3\x7d", by decide +kernel, by decide +kernel, rfl⟩
  have hone : given? ModelFile.Change.file "a" (.json "\x7b\"b\": 3\x7d") = none := by
    decide +kernel
  have hthree : (ModelFile.Change.json "\x7b\"b\": 3\x7d").Binds "b" "3" :=
    ModelFile.Change.given?_file_eq_some_iff.1 (by decide +kernel)
  have hnine : Assigns "c=9" "c" "9" := ⟨by decide, "", "", by decide, by decide, by decide⟩
  have hnone (name : String) (hne : name ≠ "c") :
      ∀ text ∈ ["c=9"], ∀ other, ¬Assigns text name other := by
    intro text htext other hassigns
    rw [List.mem_singleton.1 htext] at hassigns
    exact hne (ModelFile.Assigns.unique hnine hassigns).1
  obtain ⟨hok, hlookup, -⟩ := loadEngine_layers layeredDirectory hline hread
  obtain ⟨engine, hengine⟩ := hok.2
    ⟨List.forall_mem_cons.2 ⟨⟨_, hyaml, ModelFile.Change.binds_yaml_sample.sound⟩,
      List.forall_mem_singleton.2 ⟨_, hjson, hthree.sound⟩⟩,
      List.forall_mem_singleton.2 ⟨"c", "9", hnine⟩⟩
  refine ⟨engine, hengine, ?_, ?_, ?_⟩
  · refine (hlookup engine hengine "a" "1").2 (.inr ⟨hnone "a" (by decide), [], "m", ["n.json"],
      rfl, hyaml.defines_iff.2 ModelFile.Change.binds_yaml_sample, ?_⟩)
    intro later hlater other hdefines
    rw [List.mem_singleton.1 hlater, hjson.defines_iff, ← ModelFile.Change.given?_file_eq_some_iff,
      hone] at hdefines
    cases hdefines
  · exact (hlookup engine hengine "b" "3").2 (.inr ⟨hnone "b" (by decide), ["m"], "n.json", [],
      rfl, hjson.defines_iff.2 hthree, by simp⟩)
  · exact (hlookup engine hengine "c" "9").2 (.inl ⟨[], "c=9", [], rfl, hnine, by simp⟩)

end TagTemplate
