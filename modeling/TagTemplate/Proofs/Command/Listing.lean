import TagTemplate.Proofs.Command.Render

/-!
# Listing tags

What listing the tags of a template prints is decided by the template alone. Models and assignments
come into play only after the names have been printed, and only if they are to be checked; they can
make a command fail, but not one succeed that fails without the check. Nothing is ever written.
-/
namespace TagTemplate

open Directory

variable {d d₁ d₂ : Directory} {sources sources₁ sources₂ : Sources} {template : String}
  {check check₁ check₂ : Bool}
  {writeFile : String → String → StateM Directory (Except FileError Unit)}

def Outcome.ofScan : Except Report (String × List String) → Outcome
  | .error report => .failure "" report
  | .ok (_, names) => .success (String.join (names.map fun name => name ++ "\n"))

namespace Sources

def templateBytes (sources : Sources) (d : Directory) : Except FileError ByteArray :=
  match sources.template with
  | some path => d.readBytes path
  | none => .ok d.input

/-- Whether a template is in the same place for two commands, and the same is found there. -/
structure SameTemplate (d₁ : Directory) (sources₁ : Sources) (d₂ : Directory)
    (sources₂ : Sources) : Prop where
  template_eq : sources₁.template = sources₂.template
  bytes_eq : sources₁.templateBytes d₁ = sources₂.templateBytes d₂

/-- The tag names of the template, a line for each, and nothing if the template cannot be read, is
no text or cannot be scanned. -/
def listing (sources : Sources) (d : Directory) : String :=
  match (sources.templateBytes d).bind decodeText with
  | .error _ => ""
  | .ok template =>
    match tagNames template with
    | .error _ => ""
    | .ok names => String.join (names.map fun name => name ++ "\n")

theorem see_readTemplate : d.see (sources.readTemplate host) =
    ((sources.templateBytes d).bind decodeText).mapError fun e =>
      e.report.context (match sources.template with
        | some path => "Failed to read template " ++ Text.quoted path
        | none => "Failed to read template from stdin") := by
  unfold readTemplate templateBytes
  cases sources.template with
  | some path =>
    dsimp only
    rw [see_bind (readOnly_readFile path)]
    rfl
  | none =>
    dsimp only
    rw [see_bind readOnly_readInput]
    rfl

theorem SameTemplate.see_scan_eq (h : SameTemplate d₁ sources₁ d₂ sources₂) :
    d₁.see (sources₁.scan host) = d₂.see (sources₂.scan host) := by
  rw [see_scan, see_scan, see_readTemplate, see_readTemplate, templateName, templateName,
    h.template_eq, h.bytes_eq]

theorem listing_eq : sources.listing d = (Outcome.ofScan (d.see (sources.scan host))).output := by
  rw [see_scan, see_readTemplate, listing]
  cases (sources.templateBytes d).bind decodeText with
  | error e => rfl
  | ok template =>
    simp only [Result.mapError_ok, Result.bind_ok]
    cases tagNames template with
    | error e => rfl
    | ok names => rfl

theorem scan_hostWriting : sources.scan (hostWriting writeFile) = sources.scan host := rfl

theorem check_hostWriting :
    sources.check (hostWriting writeFile) template = sources.check host template := by
  simp only [Sources.check, loadEngine, loadModels_hostWriting]

end Sources

namespace Command

theorem runTags_hostWriting :
    runTags (hostWriting writeFile) sources check = runTags host sources check := by
  simp only [runTags, Sources.scan_hostWriting, Sources.check_hostWriting]

theorem run_runTags_false :
    (runTags host sources false).run d = (.ofScan (d.see (sources.scan host)), d) := by
  rw [runTags, run_bind (Sources.readOnly_scan _)]
  cases d.see (sources.scan host) with
  | error report => rfl
  | ok scanned => rfl

/-- The names are printed before the model is looked at. -/
theorem exists_run_runTags_true (d : Directory) (sources : Sources) :
    ∃ outcome, (runTags host sources true).run d = (outcome, d) ∧
      outcome.output = (Outcome.ofScan (d.see (sources.scan host))).output ∧
      ((Outcome.ofScan (d.see (sources.scan host))).exitCode ≠ 0 → outcome.exitCode ≠ 0) := by
  rw [runTags, run_bind (Sources.readOnly_scan _)]
  cases d.see (sources.scan host) with
  | error report => exact ⟨.failure "" report, rfl, rfl, id⟩
  | ok scanned =>
    obtain ⟨template, names⟩ := scanned
    dsimp only
    rw [if_pos rfl, run_bind (Sources.readOnly_check _ _)]
    cases d.see (sources.check host template) with
    | ok done => exact ⟨_, rfl, rfl, id⟩
    | error report => exact ⟨_, rfl, rfl, fun h => absurd rfl h⟩

/-- Whether or not the tags are checked, what is printed is the same, and a check can only fail. -/
theorem exists_run_runTags
    (writeFile : String → String → StateM Directory (Except FileError Unit)) (d : Directory)
    (sources : Sources) (check : Bool) :
    ∃ outcome, (runTags (hostWriting writeFile) sources check).run d = (outcome, d) ∧
      outcome.output = (Outcome.ofScan (d.see (sources.scan host))).output ∧
      (check = false → outcome = .ofScan (d.see (sources.scan host))) ∧
      ((Outcome.ofScan (d.see (sources.scan host))).exitCode ≠ 0 → outcome.exitCode ≠ 0) := by
  rw [runTags_hostWriting]
  cases check with
  | false => exact ⟨_, run_runTags_false, rfl, fun _ => rfl, id⟩
  | true =>
    obtain ⟨outcome, hrun, houtput, hexit⟩ := exists_run_runTags_true d sources
    exact ⟨outcome, hrun, houtput, fun h => absurd h (by decide), hexit⟩

end Command

/-- Two commands that list the tags of the same template print the same, whatever models and
assignments they are given, and leave their directories as they are. Without the check they end
alike, and where one without the check fails the other one fails as well. -/
theorem run_tags_of_sameTemplate {arguments₁ arguments₂ : List String}
    (hread₁ : Arguments.read arguments₁ = .ok ⟨sources₁, .tags check₁⟩)
    (hread₂ : Arguments.read arguments₂ = .ok ⟨sources₂, .tags check₂⟩)
    (hsame : Sources.SameTemplate d₁ sources₁ d₂ sources₂) :
    ∃ outcome₁ outcome₂,
      (runArguments (hostWriting writeFile) arguments₁).run d₁ = (outcome₁, d₁) ∧
      (runArguments (hostWriting writeFile) arguments₂).run d₂ = (outcome₂, d₂) ∧
      outcome₁.output = sources₁.listing d₁ ∧ outcome₂.output = outcome₁.output ∧
      (check₁ = false → check₂ = false → outcome₁ = outcome₂) ∧
      (check₁ = false → outcome₁.exitCode ≠ 0 → outcome₂.exitCode ≠ 0) := by
  obtain ⟨outcome₁, hrun₁, houtput₁, hplain₁, -⟩ :=
    Command.exists_run_runTags writeFile d₁ sources₁ check₁
  obtain ⟨outcome₂, hrun₂, houtput₂, hplain₂, hexit₂⟩ :=
    Command.exists_run_runTags writeFile d₂ sources₂ check₂
  rw [← hsame.see_scan_eq] at houtput₂ hplain₂ hexit₂
  refine ⟨outcome₁, outcome₂, ?_, ?_, ?_, ?_, ?_, ?_⟩
  · rw [runArguments, hread₁]
    exact hrun₁
  · rw [runArguments, hread₂]
    exact hrun₂
  · rw [houtput₁, Sources.listing_eq]
  · rw [houtput₁, houtput₂]
  · intro hcheck₁ hcheck₂
    rw [hplain₁ hcheck₁, hplain₂ hcheck₂]
  · intro hcheck₁ hfails
    rw [hplain₁ hcheck₁] at hfails
    exact hexit₂ hfails

theorem run_tags_of_sameTemplate_sample :
    Arguments.read ["tags", "-tt"] = .ok ⟨⟨[], [], some "t"⟩, .tags false⟩ ∧
    Arguments.read ["-mm.yaml", "-sx", "tags", "--check", "-tt"] =
      .ok ⟨⟨["m.yaml"], ["x"], some "t"⟩, .tags true⟩ ∧
    ∃ outcome₁ outcome₂,
      (runArguments (hostWriting host.writeFile) ["tags", "-tt"]).run
        ⟨.ofList [("t", "\x7b\x7bb\x7d\x7d\x7b\x7b a\x7d\x7d".toUTF8)], .empty⟩ =
        (outcome₁, ⟨.ofList [("t", "\x7b\x7bb\x7d\x7d\x7b\x7b a\x7d\x7d".toUTF8)], .empty⟩) ∧
      (runArguments (hostWriting host.writeFile) ["-mm.yaml", "-sx", "tags", "--check", "-tt"]).run
        ⟨.ofList [("m.yaml", "[".toUTF8),
          ("t", "\x7b\x7bb\x7d\x7d\x7b\x7b a\x7d\x7d".toUTF8)], .empty⟩ =
        (outcome₂, ⟨.ofList [("m.yaml", "[".toUTF8),
          ("t", "\x7b\x7bb\x7d\x7d\x7b\x7b a\x7d\x7d".toUTF8)], .empty⟩) ∧
      outcome₁.output = "b\na\n" ∧ outcome₂.output = "b\na\n" := by
  have hread₁ : Arguments.read ["tags", "-tt"] = .ok ⟨⟨[], [], some "t"⟩, .tags false⟩ := by
    decide +kernel
  have hread₂ : Arguments.read ["-mm.yaml", "-sx", "tags", "--check", "-tt"] =
      .ok ⟨⟨["m.yaml"], ["x"], some "t"⟩, .tags true⟩ := by decide +kernel
  have hsame : Sources.SameTemplate
      ⟨.ofList [("t", "\x7b\x7bb\x7d\x7d\x7b\x7b a\x7d\x7d".toUTF8)], .empty⟩ ⟨[], [], some "t"⟩
      ⟨.ofList [("m.yaml", "[".toUTF8),
        ("t", "\x7b\x7bb\x7d\x7d\x7b\x7b a\x7d\x7d".toUTF8)], .empty⟩
      ⟨["m.yaml"], ["x"], some "t"⟩ :=
    ⟨rfl, by decide +kernel⟩
  obtain ⟨outcome₁, outcome₂, hrun₁, hrun₂, houtput₁, houtput₂, -⟩ :=
    run_tags_of_sameTemplate hread₁ hread₂ hsame
  have hlisting := houtput₁.trans (by decide +kernel : _ = "b\na\n")
  exact ⟨hread₁, hread₂, outcome₁, outcome₂, hrun₁, hrun₂, hlisting, houtput₂.trans hlisting⟩

end TagTemplate
