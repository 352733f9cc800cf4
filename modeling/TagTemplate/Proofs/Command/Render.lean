import TagTemplate.Proofs.Command.Directory
import TagTemplate.Proofs.File.Write

/-!
# Rendering is all or nothing

Rendering touches a directory with its last step alone. If any stage fails nothing is written, and
otherwise the rendered text goes to the output, or into one file that may have been read before.
-/
namespace TagTemplate

open Directory

namespace Directory

def hostWriting (writeFile : String → String → StateM Directory (Except FileError Unit)) :
    Host (StateM Directory) := { host with writeFile }

@[simp] theorem writeFile_hostWriting
    (writeFile : String → String → StateM Directory (Except FileError Unit)) :
    (hostWriting writeFile).writeFile = writeFile := rfl

/-- Whether a file is written completely, or else, for whatever reason, not at all. -/
def IsAtomic (writeFile : String → String → StateM Directory (Except FileError Unit)) : Prop :=
  ∀ path text d, (∃ e, (writeFile path text).run d = (.error e, d)) ∨
    ∃ d', d.write path text = .ok d' ∧ (writeFile path text).run d = (.ok (), d')

theorem run_writeFile (d : Directory) (path text : String) :
    (host.writeFile path text).run d =
      match d.write path text with
      | .ok d' => (.ok (), d')
      | .error e => (.error e, d) := by
  simp only [host, StateT.run_bind, StateT.run_get, pure_bind]
  cases d.write path text with
  | ok d' => rfl
  | error e => rfl

theorem isAtomic_writeFile : IsAtomic host.writeFile := by
  intro path text d
  rw [run_writeFile]
  cases d.write path text with
  | ok d' => exact .inr ⟨d', rfl, rfl⟩
  | error e => exact .inl ⟨e, rfl⟩

end Directory

variable {writeFile : String → String → StateM Directory (Except FileError Unit)}
  {d : Directory} {sources : Sources} {output : Option String}

namespace Sources

theorem loadModels_hostWriting (model : ModelFile) (paths : List String) :
    loadModels (hostWriting writeFile) model paths = loadModels host model paths := by
  induction paths generalizing model with
  | nil => rfl
  | cons path paths ih => simp only [loadModels, ih]; rfl

theorem render_hostWriting :
    sources.render (hostWriting writeFile) = sources.render host := by
  simp only [render, loadEngine, loadModels_hostWriting]
  rfl

end Sources

namespace Command

theorem run_runRender_of_error {report : Report} (h : d.see (sources.render host) = .error report) :
    (runRender (hostWriting writeFile) sources output).run d = (.failure "" report, d) := by
  rw [runRender, Sources.render_hostWriting, run_bind (Sources.readOnly_render _), h]
  rfl

theorem run_runRender_of_ok {text : String} (h : d.see (sources.render host) = .ok text) :
    (runRender (hostWriting writeFile) sources output).run d =
      match output with
      | none => (.success text, d)
      | some path =>
        match (writeFile path text).run d with
        | (.ok (), d') => (.success "", d')
        | (.error e, d') =>
          (.failure "" (e.report.context ("Failed to write output " ++ Text.quoted path)), d') := by
  rw [runRender, Sources.render_hostWriting, run_bind (Sources.readOnly_render _), h]
  cases output with
  | none => rfl
  | some path =>
    dsimp only
    rw [StateT.run_bind, writeFile_hostWriting]
    rcases (writeFile path text).run d with ⟨result, d'⟩
    cases result with
    | ok done => rfl
    | error e => rfl

end Command

/-- Where a rendered text goes: it is printed, or put into the output file alone if one is named. -/
def Directory.Delivers (d : Directory) (text printed : String) (d' : Directory) :
    Option String → Prop
  | none => printed = text ∧ d' = d
  | some path => printed = "" ∧ d.Replaces path text d'

/-- If rendering fails at any stage, nothing is printed and nothing is written. If it succeeds, just
the rendered text is, even over a file that the model or the template came from. -/
theorem run_render_all_or_nothing (hatomic : IsAtomic writeFile) {arguments : List String}
    (hread : Arguments.read arguments = .ok ⟨sources, .render output⟩) (d : Directory) :
    ∃ outcome d',
      (runArguments (hostWriting writeFile) arguments).run d = (outcome, d') ∧
      (outcome.exitCode ≠ 0 → outcome.output = "" ∧ d' = d) ∧
      (outcome.exitCode = 0 →
        ∃ text, sources.Gives d text ∧ d.Delivers text outcome.output d' output) ∧
      (outcome.exitCode = 0 ↔ ∃ text, sources.Gives d text ∧ ∀ path ∈ output,
        ((writeFile path text).run d).1 = .ok ()) := by
  have hrun : runArguments (hostWriting writeFile) arguments =
      Command.runRender (hostWriting writeFile) sources output := by
    rw [runArguments, hread]
    rfl
  rw [hrun]
  cases hrender : d.see (sources.render host) with
  | error report =>
    refine ⟨_, _, Command.run_runRender_of_error hrender, fun _ => ⟨rfl, rfl⟩,
      fun h => absurd h Nat.one_ne_zero, iff_of_false Nat.one_ne_zero ?_⟩
    rintro ⟨text, hgives, -⟩
    rw [Sources.see_render_eq_ok_iff.2 hgives] at hrender
    cases hrender
  | ok text =>
    have hgives := Sources.see_render_eq_ok_iff.1 hrender
    rw [Command.run_runRender_of_ok hrender]
    cases output with
    | none =>
      exact ⟨_, _, rfl, fun h => absurd rfl h, fun _ => ⟨text, hgives, rfl, rfl⟩,
        iff_of_true rfl ⟨text, hgives, by simp⟩⟩
    | some path =>
      dsimp only
      rcases hatomic path text d with ⟨e, hwrite⟩ | ⟨d', hd', hwrite⟩
      · rw [hwrite]
        refine ⟨_, _, rfl, fun _ => ⟨rfl, rfl⟩, fun h => absurd h Nat.one_ne_zero,
          iff_of_false Nat.one_ne_zero ?_⟩
        rintro ⟨text', hgives', hdone⟩
        have hsame : text' = text := Except.ok.inj
          ((Sources.see_render_eq_ok_iff.2 hgives').symm.trans hrender)
        have hok := hdone path rfl
        rw [hsame, hwrite] at hok
        cases hok
      · rw [hwrite]
        refine ⟨_, _, rfl, fun h => absurd rfl h,
          fun _ => ⟨text, hgives, rfl, replaces_of_write hd'⟩, iff_of_true rfl ⟨text, hgives, ?_⟩⟩
        rintro _ ⟨⟩
        rw [hwrite]

theorem run_render_all_or_nothing_sample :
    (∃ d', (runArguments (hostWriting host.writeFile) ["-sa=x", "-tt", "render", "-ot"]).run
        ⟨.ofList [("t", "\x7b\x7ba\x7d\x7d".toUTF8)], .empty⟩ = (.success "", d') ∧
      Directory.Replaces ⟨.ofList [("t", "\x7b\x7ba\x7d\x7d".toUTF8)], .empty⟩ "t" "x" d') ∧
    ∃ outcome, (runArguments (hostWriting host.writeFile) ["-tt", "render", "-ot"]).run
        ⟨.ofList [("t", "\x7b\x7ba\x7d\x7d".toUTF8)], .empty⟩ =
          (outcome, ⟨.ofList [("t", "\x7b\x7ba\x7d\x7d".toUTF8)], .empty⟩) ∧
      outcome.exitCode = 1 ∧ outcome.output = "" := by
  constructor
  · obtain ⟨outcome, d', hrun, -, hsuccess, -⟩ := run_render_all_or_nothing isAtomic_writeFile
      (by decide +kernel : Arguments.read ["-sa=x", "-tt", "render", "-ot"] =
        .ok ⟨⟨[], ["a=x"], some "t"⟩, .render (some "t")⟩)
      ⟨.ofList [("t", "\x7b\x7ba\x7d\x7d".toUTF8)], .empty⟩
    have houtcome : outcome = .success "" :=
      (congrArg Prod.fst hrun).symm.trans (by decide +kernel)
    subst houtcome
    obtain ⟨text, -, -, hreplaces⟩ := hsuccess rfl
    have hread : d'.read "t" = .ok "x" :=
      (congrArg (fun result => result.2.read "t") hrun).symm.trans (by decide +kernel)
    have htext : text = "x" := Except.ok.inj (hreplaces.read_eq.symm.trans hread)
    exact ⟨d', hrun, htext ▸ hreplaces⟩
  · obtain ⟨outcome, d', hrun, hfailure, -⟩ := run_render_all_or_nothing isAtomic_writeFile
      (by decide +kernel : Arguments.read ["-tt", "render", "-ot"] =
        .ok ⟨⟨[], [], some "t"⟩, .render (some "t")⟩)
      ⟨.ofList [("t", "\x7b\x7ba\x7d\x7d".toUTF8)], .empty⟩
    have hcode : outcome.exitCode = 1 :=
      (congrArg (fun result => result.1.exitCode) hrun).symm.trans (by decide +kernel)
    obtain ⟨hprinted, rfl⟩ := hfailure (by rw [hcode]; exact Nat.one_ne_zero)
    exact ⟨outcome, hrun, hcode, hprinted⟩

end TagTemplate
