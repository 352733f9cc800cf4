import TagTemplate.Command.Run
import TagTemplate.File.Directory
import TagTemplate.Proofs.Result

/-!
# Commands in a directory

Loading models and reading templates leave a directory as it is. So what a command sees of it does
not hang on the order in which it looks, and a command that only looks can be told by its stages
alone.
-/
namespace TagTemplate

variable {α β : Type} {d : Directory} {sources : Sources}

namespace Directory

def see (d : Directory) (action : StateM Directory α) : α := (action.run d).1

def ReadOnly (action : StateM Directory α) : Prop := ∀ d, (action.run d).2 = d

theorem readOnly_pure (a : α) : ReadOnly (pure a : StateM Directory α) := fun _ => rfl

theorem ReadOnly.bind {action : StateM Directory α} {next : α → StateM Directory β}
    (h : ReadOnly action) (hnext : ∀ a, ReadOnly (next a)) : ReadOnly (action >>= next) := by
  intro d
  change ((next (action.run d).1).run (action.run d).2).2 = d
  rw [h d]
  exact hnext _ d

theorem run_bind {action : StateM Directory α} {next : α → StateM Directory β}
    (h : ReadOnly action) : (action >>= next).run d = (next (d.see action)).run d := by
  change (next (action.run d).1).run (action.run d).2 = _
  rw [h d]
  rfl

theorem see_bind {action : StateM Directory α} {next : α → StateM Directory β}
    (h : ReadOnly action) : d.see (action >>= next) = d.see (next (d.see action)) :=
  congrArg Prod.fst (run_bind h)

theorem readOnly_readFile (path : String) : ReadOnly (host.readFile path) := fun _ => rfl

theorem readOnly_readInput : ReadOnly host.readInput := fun _ => rfl

end Directory

open Directory

theorem ModelFile.readOnly_load (path : String) : ReadOnly (load host path) := by
  apply (readOnly_readFile path).bind
  intro text
  cases text with
  | ok text => exact readOnly_pure _
  | error e => exact readOnly_pure _

namespace Sources

theorem readOnly_loadModels (model : ModelFile) (paths : List String) :
    ReadOnly (loadModels host model paths) := by
  induction paths generalizing model with
  | nil => exact readOnly_pure _
  | cons path paths ih =>
    apply (ModelFile.readOnly_load path).bind
    intro file
    cases file with
    | ok file => exact ih _
    | error e => exact readOnly_pure _

theorem readOnly_loadEngine (sources : Sources) : ReadOnly (sources.loadEngine host) := by
  apply (readOnly_loadModels .empty sources.models).bind
  intro model
  cases model with
  | ok model => exact readOnly_pure _
  | error e => exact readOnly_pure _

theorem readOnly_readTemplate (sources : Sources) : ReadOnly (sources.readTemplate host) := by
  unfold readTemplate
  split
  · exact (readOnly_readFile _).bind fun _ => readOnly_pure _
  · exact readOnly_readInput.bind fun _ => readOnly_pure _

theorem readOnly_render (sources : Sources) : ReadOnly (sources.render host) := by
  apply (readOnly_loadEngine sources).bind
  intro engine
  cases engine with
  | error e => exact readOnly_pure _
  | ok engine =>
    apply (readOnly_readTemplate sources).bind
    intro template
    cases template with
    | error e => exact readOnly_pure _
    | ok template => exact readOnly_pure _

theorem readOnly_scan (sources : Sources) : ReadOnly (sources.scan host) := by
  apply (readOnly_readTemplate sources).bind
  intro template
  cases template with
  | error e => exact readOnly_pure _
  | ok template =>
    dsimp only
    split
    · exact readOnly_pure _
    · exact readOnly_pure _

theorem readOnly_check (sources : Sources) (template : String) :
    ReadOnly (sources.check host template) := by
  apply (readOnly_loadEngine sources).bind
  intro engine
  cases engine with
  | error e => exact readOnly_pure _
  | ok engine =>
    dsimp only
    split
    · exact readOnly_pure _
    · exact readOnly_pure _
    · exact readOnly_pure _

theorem see_loadEngine : d.see (sources.loadEngine host) =
    (d.see (loadModels host .empty sources.models)).bind fun model =>
      (assign model sources.assignments).bind engineOf := by
  rw [loadEngine, see_bind (readOnly_loadModels _ _)]
  cases d.see (loadModels host .empty sources.models) with
  | ok model => rfl
  | error e => rfl

theorem see_render : d.see (sources.render host) =
    (d.see (sources.loadEngine host)).bind fun engine =>
      (d.see (sources.readTemplate host)).bind fun template =>
        (engine.render template).mapError fun e =>
          e.report.context ("Failed to render " ++ sources.templateName) := by
  rw [render, see_bind (readOnly_loadEngine _)]
  cases d.see (sources.loadEngine host) with
  | error e => rfl
  | ok engine =>
    rw [Result.bind_ok]
    dsimp only
    rw [see_bind (readOnly_readTemplate _)]
    cases d.see (sources.readTemplate host) with
    | error e => rfl
    | ok template => rfl

def Gives (sources : Sources) (d : Directory) (text : String) : Prop :=
  ∃ engine template, d.see (sources.loadEngine host) = .ok engine ∧
    d.see (sources.readTemplate host) = .ok template ∧
    TagTemplate.render engine.model template = .ok text

theorem see_render_eq_ok_iff {text : String} :
    d.see (sources.render host) = .ok text ↔ sources.Gives d text := by
  rw [see_render]
  constructor
  · intro h
    obtain ⟨engine, hengine, h⟩ := Result.bind_eq_ok_iff.1 h
    obtain ⟨template, htemplate, h⟩ := Result.bind_eq_ok_iff.1 h
    exact ⟨engine, template, hengine, htemplate, Result.mapError_eq_ok_iff.1 h⟩
  · rintro ⟨engine, template, hengine, htemplate, htext⟩
    rw [hengine, Result.bind_ok, htemplate, Result.bind_ok]
    exact Result.mapError_eq_ok_iff.2 htext

theorem see_scan : d.see (sources.scan host) =
    (d.see (sources.readTemplate host)).bind fun template =>
      match tagNames template with
      | .ok names => .ok (template, names)
      | .error e => .error (e.report.context ("Failed to scan " ++ sources.templateName)) := by
  rw [scan, see_bind (readOnly_readTemplate _)]
  cases d.see (sources.readTemplate host) with
  | error e => rfl
  | ok template =>
    rw [Result.bind_ok]
    dsimp only
    cases tagNames template with
    | ok names => rfl
    | error e => rfl

theorem see_check (template : String) : d.see (sources.check host template) =
    (d.see (sources.loadEngine host)).bind fun engine =>
      match engine.missingTags template with
      | .error e => .error e.report
      | .ok [] => .ok ()
      | .ok names => .error (missingReport names) := by
  rw [check, see_bind (readOnly_loadEngine _)]
  cases d.see (sources.loadEngine host) with
  | error e => rfl
  | ok engine =>
    rw [Result.bind_ok]
    dsimp only
    match engine.missingTags template with
    | .error e => rfl
    | .ok [] => rfl
    | .ok (name :: names) => rfl

end Sources

end TagTemplate
