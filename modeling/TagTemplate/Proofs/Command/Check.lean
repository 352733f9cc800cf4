import TagTemplate.Proofs.Command.Accepted
import TagTemplate.Proofs.Command.Engine

/-!
# Checking tags before rendering

Listing tags with the check succeeds on the command lines that rendering succeeds on. The stages
come in another order, but each fails for the one if it fails for the other, and what the check
finds missing is just what would have to be assigned besides. No other stage has an error that reads
like the list of the missing names.
-/
namespace TagTemplate

open Directory

variable {d : Directory} {sources sources' : Sources} {engine : Engine} {template : String}

namespace Report

variable {report : Report}

theorem exists_text_eq (report : Report) :
    ∃ more, report.text = "Error: " ++ (report.outermost ++ more) := by
  unfold text
  dsimp only
  split
  · exact ⟨"\n", by rw [String.append_assoc]⟩
  · exact ⟨_, by rw [String.append_assoc, String.append_assoc, String.append_assoc]⟩

def BeginsWith (c : Char) (report : Report) : Prop := report.outermost.toList.head? = some c

theorem beginsWith_append {outer : String} {c : Char} (h : outer.toList.head? = some c)
    (more : String) (causes : List String) : (Report.mk (outer ++ more) causes).BeginsWith c := by
  rw [BeginsWith, String.toList_append, List.head?_append, h, Option.some_or]

theorem beginsWith_invalidAssignment (text : String) :
    (LoadError.invalidAssignment text).report.BeginsWith 'I' := by
  have h : "Invalid assignment ".toList.head? = some 'I' := by decide
  unfold BeginsWith LoadError.report LoadError.message
  simp only [String.toList_append, List.append_assoc, List.head?_append, h, Option.some_or]

theorem text_ne_of_beginsWith {c : Char} (h : report.BeginsWith c) (hc : c ≠ 'M') (more : String) :
    report.text ≠ "Error: Model is missing " ++ more := by
  intro heq
  obtain ⟨rest, htext⟩ := report.exists_text_eq
  have hchars : "Error: ".toList ++ (report.outermost.toList ++ rest.toList) =
      "Error: ".toList ++ ('M' :: "odel is missing ".toList ++ more.toList) := by
    rw [← String.toList_append, ← String.toList_append, ← htext, heq, String.toList_append]
    rfl
  have hhead := congrArg List.head? (List.append_cancel_left hchars)
  rw [List.head?_append, h, Option.some_or] at hhead
  exact hc (Option.some.inj hhead)

end Report

namespace Sources

variable {report : Report}

theorem see_loadModels_cons (model : ModelFile) (path : String) (paths : List String) :
    d.see (loadModels host model (path :: paths)) =
      ((d.see (ModelFile.load host path)).mapError fun e =>
        e.report.context ("Failed to load model " ++ Text.quoted path)).bind fun file =>
          d.see (loadModels host (model.merge file) paths) := by
  rw [loadModels, see_bind (ModelFile.readOnly_load path)]
  cases d.see (ModelFile.load host path) with
  | ok file => rfl
  | error e => rfl

theorem beginsWith_of_loadModels {model : ModelFile} {paths : List String}
    (h : d.see (loadModels host model paths) = .error report) : report.BeginsWith 'F' := by
  induction paths generalizing model with
  | nil => cases h
  | cons path paths ih =>
    rw [see_loadModels_cons] at h
    cases hload : d.see (ModelFile.load host path) with
    | ok file =>
      rw [hload] at h
      exact ih h
    | error e =>
      rw [hload] at h
      rw [← Except.error.inj h]
      exact Report.beginsWith_append (by decide) _ _

theorem assign_cons (model : ModelFile) (text : String) (assignments : List String) :
    assign model (text :: assignments) =
      ((model.set text).mapError LoadError.report).bind fun model => assign model assignments := by
  rw [assign]
  cases model.set text with
  | ok model => rfl
  | error e => rfl

theorem beginsWith_of_assign {model : ModelFile} {assignments : List String}
    (h : assign model assignments = .error report) : report.BeginsWith 'I' := by
  induction assignments generalizing model with
  | nil => cases h
  | cons text assignments ih =>
    rw [assign_cons] at h
    cases hset : model.set text with
    | ok result =>
      rw [hset] at h
      exact ih h
    | error e =>
      rw [hset, ModelFile.eq_invalidAssignment_of_set hset] at h
      rw [← Except.error.inj h]
      exact Report.beginsWith_invalidAssignment text

theorem beginsWith_of_loadEngine (h : d.see (sources.loadEngine host) = .error report) :
    report.BeginsWith 'F' ∨ report.BeginsWith 'I' := by
  rw [see_loadEngine] at h
  cases hmodel : d.see (loadModels host .empty sources.models) with
  | error report' =>
    rw [hmodel] at h
    rw [← Except.error.inj h]
    exact .inl (beginsWith_of_loadModels hmodel)
  | ok model =>
    rw [hmodel, Result.bind_ok] at h
    cases hassign : assign model sources.assignments with
    | error report' =>
      rw [hassign] at h
      rw [← Except.error.inj h]
      exact .inr (beginsWith_of_assign hassign)
    | ok result =>
      rw [hassign, Result.bind_ok, engineOf] at h
      obtain ⟨e, -, rfl⟩ := Result.mapError_eq_error_iff.1 h
      have hhead : "Invalid model".toList.head? = some 'I' := by decide
      exact .inr hhead

theorem beginsWith_of_readTemplate (h : d.see (sources.readTemplate host) = .error report) :
    report.BeginsWith 'F' := by
  unfold readTemplate at h
  split at h
  · rw [see_bind (readOnly_readFile _)] at h
    obtain ⟨e, -, rfl⟩ := Result.mapError_eq_error_iff.1 h
    exact Report.beginsWith_append (by decide) _ _
  · rw [see_bind readOnly_readInput] at h
    obtain ⟨e, -, rfl⟩ := Result.mapError_eq_error_iff.1 h
    have hhead : "Failed to read template from stdin".toList.head? = some 'F' := by decide
    exact hhead

theorem beginsWith_of_scan (h : d.see (sources.scan host) = .error report) :
    report.BeginsWith 'F' := by
  rw [see_scan] at h
  cases htemplate : d.see (sources.readTemplate host) with
  | error report' =>
    rw [htemplate] at h
    rw [← Except.error.inj h]
    exact beginsWith_of_readTemplate htemplate
  | ok template =>
    rw [htemplate, Result.bind_ok] at h
    split at h
    · cases h
    · rw [← Except.error.inj h]
      exact Report.beginsWith_append (by decide) _ _

theorem see_scan_eq_ok_iff {names : List String} :
    d.see (sources.scan host) = .ok (template, names) ↔
      d.see (sources.readTemplate host) = .ok template ∧ tagNames template = .ok names := by
  rw [see_scan]
  constructor
  · intro h
    obtain ⟨template', htemplate, h⟩ := Result.bind_eq_ok_iff.1 h
    split at h
    · rename_i names' hnames
      obtain ⟨rfl, rfl⟩ := Prod.mk.inj (Except.ok.inj h)
      exact ⟨htemplate, hnames⟩
    · cases h
  · rintro ⟨htemplate, hnames⟩
    simp only [htemplate, Result.bind_ok, hnames]

theorem see_check_eq_ok_iff :
    d.see (sources.check host template) = .ok () ↔
      ∃ engine, d.see (sources.loadEngine host) = .ok engine ∧
        engine.missingTags template = .ok [] := by
  rw [see_check]
  constructor
  · intro h
    obtain ⟨engine, hengine, h⟩ := Result.bind_eq_ok_iff.1 h
    split at h
    · cases h
    · rename_i hmissing
      exact ⟨engine, hengine, hmissing⟩
    · cases h
  · rintro ⟨engine, hengine, hmissing⟩
    simp only [hengine, Result.bind_ok, hmissing]

/-- Where the template has no fault, the check fails for want of an engine or of some names. -/
theorem of_see_check_eq_error {names : List String} (hscan : tagNames template = .ok names)
    (h : d.see (sources.check host template) = .error report) :
    d.see (sources.loadEngine host) = .error report ∨
      ∃ engine missing, d.see (sources.loadEngine host) = .ok engine ∧
        engine.missingTags template = .ok missing ∧ missing ≠ [] ∧
        report = missingReport missing := by
  rw [see_check] at h
  cases hengine : d.see (sources.loadEngine host) with
  | error report' =>
    rw [hengine] at h
    exact .inl (congrArg Except.error (Except.error.inj h))
  | ok engine =>
    rw [hengine, Result.bind_ok] at h
    split at h
    · rename_i e hmissing
      rw [Engine.missingTags, hscan] at hmissing
      cases hmissing
    · cases h
    · rename_i missing hne hmissing
      exact .inr ⟨engine, missing, rfl, hmissing, hne, (Except.error.inj h).symm⟩

theorem Extends.see_readTemplate {added : List (String × String)}
    (h : sources.Extends added sources') :
    d.see (sources'.readTemplate host) = d.see (sources.readTemplate host) := by
  unfold readTemplate
  rw [h.template]

end Sources

namespace Command

theorem see_runRender_none :
    d.see (runRender host sources none) =
      match d.see (sources.render host) with
      | .error report => .failure "" report
      | .ok rendered => .success rendered := by
  rw [runRender, see_bind (Sources.readOnly_render _)]
  cases d.see (sources.render host) with
  | error report => rfl
  | ok rendered => rfl

theorem see_runTags_check :
    d.see (runTags host sources true) =
      match d.see (sources.scan host) with
      | .error report => .failure "" report
      | .ok (template, names) =>
        match d.see (sources.check host template) with
        | .ok () => .success (String.join (names.map fun name => name ++ "\n"))
        | .error report => .failure (String.join (names.map fun name => name ++ "\n")) report := by
  rw [runTags, see_bind (Sources.readOnly_scan _)]
  cases d.see (sources.scan host) with
  | error report => rfl
  | ok scanned =>
    obtain ⟨template, names⟩ := scanned
    dsimp only
    rw [if_pos rfl, see_bind (Sources.readOnly_check _ _)]
    cases d.see (sources.check host template) with
    | error report => rfl
    | ok done => rfl

/-- Rendering needs an engine and a template that it renders. -/
theorem exitCode_runRender_eq_zero_iff :
    (d.see (runRender host sources none)).exitCode = 0 ↔
      ∃ engine template, d.see (sources.loadEngine host) = .ok engine ∧
        d.see (sources.readTemplate host) = .ok template ∧
        ∃ text, engine.render template = .ok text := by
  have hexit : (d.see (runRender host sources none)).exitCode = 0 ↔
      ∃ text, d.see (sources.render host) = .ok text := by
    rw [see_runRender_none]
    cases d.see (sources.render host) with
    | error report => simp [Outcome.failure]
    | ok rendered => simp [Outcome.success]
  simp only [hexit, Sources.see_render_eq_ok_iff]
  constructor
  · rintro ⟨text, engine, template, hengine, htemplate, htext⟩
    exact ⟨engine, template, hengine, htemplate, text, htext⟩
  · rintro ⟨engine, template, hengine, htemplate, text, htext⟩
    exact ⟨text, engine, template, hengine, htemplate, htext⟩

/-- The check needs an engine and a template for which it lacks nothing. -/
theorem exitCode_runTags_eq_zero_iff :
    (d.see (runTags host sources true)).exitCode = 0 ↔
      ∃ engine template, d.see (sources.loadEngine host) = .ok engine ∧
        d.see (sources.readTemplate host) = .ok template ∧
        engine.missingTags template = .ok [] := by
  rw [see_runTags_check]
  constructor
  · intro h
    cases hscan : d.see (sources.scan host) with
    | error report =>
      rw [hscan] at h
      exact absurd h Nat.one_ne_zero
    | ok scanned =>
      obtain ⟨template, names⟩ := scanned
      obtain ⟨htemplate, -⟩ := Sources.see_scan_eq_ok_iff.1 hscan
      rw [hscan] at h
      dsimp only at h
      cases hcheck : d.see (sources.check host template) with
      | error report =>
        rw [hcheck] at h
        exact absurd h Nat.one_ne_zero
      | ok done =>
        obtain ⟨engine, hengine, hmissing⟩ := Sources.see_check_eq_ok_iff.1 hcheck
        exact ⟨engine, template, hengine, htemplate, hmissing⟩
  · rintro ⟨engine, template, hengine, htemplate, hmissing⟩
    obtain ⟨names, hnames, -⟩ := Result.map_eq_ok_iff.1 hmissing
    rw [Sources.see_scan_eq_ok_iff.2 ⟨htemplate, hnames⟩]
    dsimp only
    rw [Sources.see_check_eq_ok_iff.2 ⟨engine, hengine, hmissing⟩]
    rfl

/-- Whatever the sources are, the check is a dry run of rendering. -/
theorem exitCode_runTags_eq_zero_iff_runRender :
    (d.see (runTags host sources true)).exitCode = 0 ↔
      (d.see (runRender host sources none)).exitCode = 0 := by
  rw [exitCode_runTags_eq_zero_iff, exitCode_runRender_eq_zero_iff]
  simp only [Engine.missingTags_eq_nil_iff]

theorem exists_missing_of_errors {more : String}
    (h : (d.see (runTags host sources true)).errors = "Error: Model is missing " ++ more) :
    ∃ engine template missing, d.see (sources.loadEngine host) = .ok engine ∧
      d.see (sources.readTemplate host) = .ok template ∧
      engine.missingTags template = .ok missing ∧ missing ≠ [] ∧
      (d.see (runTags host sources true)).errors = (Sources.missingReport missing).text := by
  rw [see_runTags_check] at h ⊢
  cases hscan : d.see (sources.scan host) with
  | error report =>
    rw [hscan] at h
    exact absurd h (Report.text_ne_of_beginsWith (Sources.beginsWith_of_scan hscan) (by decide) _)
  | ok scanned =>
    obtain ⟨template, names⟩ := scanned
    obtain ⟨htemplate, hnames⟩ := Sources.see_scan_eq_ok_iff.1 hscan
    rw [hscan] at h
    dsimp only at h ⊢
    cases hcheck : d.see (sources.check host template) with
    | ok done =>
      rw [hcheck] at h
      have hchars := congrArg String.toList h
      rw [String.toList_append] at hchars
      cases hchars
    | error report =>
      rw [hcheck] at h
      rcases Sources.of_see_check_eq_error hnames hcheck with
        hengine | ⟨engine, missing, hengine, hmissing, hne, rfl⟩
      · rcases Sources.beginsWith_of_loadEngine hengine with hbegins | hbegins
        · exact absurd h (Report.text_ne_of_beginsWith hbegins (by decide) _)
        · exact absurd h (Report.text_ne_of_beginsWith hbegins (by decide) _)
      · exact ⟨engine, template, missing, hengine, htemplate, hmissing, hne, rfl⟩

/-- With further assignments rendering succeeds exactly if they supply all that was missing. -/
theorem exitCode_runRender_eq_zero_iff_of_extends {missing : List String}
    {added : List (String × String)} (hengine : d.see (sources.loadEngine host) = .ok engine)
    (htemplate : d.see (sources.readTemplate host) = .ok template)
    (hmissing : engine.missingTags template = .ok missing)
    (hextends : sources.Extends added sources')
    (hadded : ∀ entry ∈ added, isTagName entry.1.toList = true) :
    (d.see (runRender host sources' none)).exitCode = 0 ↔
      ∀ name ∈ missing, name ∈ added.map Prod.fst := by
  obtain ⟨engine', hengine', hbinds⟩ := Sources.exists_loadEngine_of_added hengine hextends hadded
  have hkept : ∀ name, Model.Binds engine.model name → Model.Binds engine'.model name :=
    fun name hname => (hbinds name).2 (.inr hname)
  have hrender : (d.see (runRender host sources' none)).exitCode = 0 ↔
      ∃ text, engine'.render template = .ok text := by
    rw [exitCode_runRender_eq_zero_iff, hengine', hextends.see_readTemplate, htemplate]
    constructor
    · rintro ⟨_, _, hsame, hsame', h⟩
      cases hsame
      cases hsame'
      exact h
    · intro h
      exact ⟨engine', template, rfl, rfl, h⟩
  rw [hrender, Engine.render, Engine.exists_render_iff_of_missingTags hmissing hkept]
  apply forall₂_congr
  intro name hname
  rw [hbinds, or_iff_left (Engine.not_binds_of_mem_missingTags hmissing hname)]

end Command

def Directory.outcome (d : Directory) (arguments : List String) : Outcome :=
  d.see (runArguments host arguments)

/-- What the check says of the names that it finds missing: how many they are and which, each once
and in the order in which the template has them. -/
structure ListsMissing (template : String) (names : List String) (errors : String) : Prop where
  errors_eq : errors = "Error: Model is missing " ++ toString names.length ++ " tag(s): " ++
    String.intercalate ", " names ++ "\n"
  ne_nil : names ≠ []
  nodup : names.Nodup
  in_order : ∃ tags, placeholders template = .ok tags ∧
    (∀ name ∈ names, name ∈ tags.map Tag.name) ∧
    names.Pairwise fun a b => (tags.map Tag.name).idxOf a < (tags.map Tag.name).idxOf b

theorem listsMissing_of_missingTags {missing : List String}
    (h : engine.missingTags template = .ok missing) (hne : missing ≠ []) :
    ListsMissing template missing (Sources.missingReport missing).text := by
  obtain ⟨tags, htags, rfl⟩ := Engine.missingTags_eq_ok_iff.1 h
  have horder : (engine.missingAmong tags).Pairwise fun a b =>
      (tags.map Tag.name).idxOf a < (tags.map Tag.name).idxOf b :=
    Engine.pairwise_idxOf_missingAmong tags
  refine ⟨?_, hne, ?_, tags, htags, ?_, horder⟩
  · have hstart : "Error: Model is missing " = "Error: " ++ "Model is missing " := by decide
    rw [hstart]
    unfold Sources.missingReport Report.text
    simp only [List.isEmpty_nil, if_true, String.append_assoc]
  · apply horder.imp
    intro a b hlt heq
    rw [heq] at hlt
    exact lt_irrefl _ hlt
  · intro name hname
    exact (Engine.mem_missingAmong_iff.1 hname).1

section Lines

variable {before after : List Arguments.SourceOption} {arguments : List String}

theorem outcome_of_isCheckLine (h : Arguments.IsCheckLine before after arguments) :
    d.outcome arguments =
      match Arguments.sourcesOf before after with
      | .ok sources => d.see (Command.runTags host sources true)
      | .error stop => stop.outcome := by
  rw [outcome, runArguments, Arguments.read_tags_check h]
  cases Arguments.sourcesOf before after with
  | ok sources => rfl
  | error stop => rfl

theorem outcome_of_isRenderLine (h : Arguments.IsRenderLine before after arguments) :
    d.outcome arguments =
      match Arguments.sourcesOf before after with
      | .ok sources => d.see (Command.runRender host sources none)
      | .error stop => stop.outcome := by
  rw [outcome, runArguments, Arguments.read_render h]
  cases Arguments.sourcesOf before after with
  | ok sources => rfl
  | error stop => rfl

theorem Stop.errors_outcome_ne (stop : Stop) (more : String) :
    stop.outcome.errors ≠ "Error: Model is missing " ++ more := by
  intro h
  have hhead := congrArg (fun text => text.toList.head?) h
  have herror : "Error: Model is missing ".toList.head? = some 'E' := by decide
  simp only [String.toList_append, List.head?_append, herror, Option.some_or] at hhead
  cases stop with
  | help => cases hhead
  | version => cases hhead
  | badUsage =>
    have husage : "Usage: tagsub [OPTIONS] [COMMAND]\n\n".toList.head? = some 'U' := by decide
    unfold outcome usageText at hhead
    simp only [String.toList_append, List.append_assoc, List.head?_append, husage,
      Option.some_or] at hhead
    cases hhead

theorem outcome_eq_of_read {other : List String}
    (h : Arguments.read other = Arguments.read arguments) : d.outcome other = d.outcome arguments := by
  rw [outcome, outcome, runArguments, runArguments, h]

variable {checking rendering : List String}

theorem exitCode_eq_zero_iff_of_lines (hcheck : Arguments.IsCheckLine before after checking)
    (hrender : Arguments.IsRenderLine before after rendering) :
    (d.outcome checking).exitCode = 0 ↔ (d.outcome rendering).exitCode = 0 := by
  rw [outcome_of_isCheckLine hcheck, outcome_of_isRenderLine hrender]
  cases Arguments.sourcesOf before after with
  | error stop => exact Iff.rfl
  | ok sources => exact Command.exitCode_runTags_eq_zero_iff_runRender

/-- With further assignments both succeed exactly if they supply all that was missing. -/
theorem exitCode_eq_zero_iff_of_addsBeside {missing : List String} {added : List (String × String)}
    {before' after' : List Arguments.SourceOption}
    (hsources : Arguments.sourcesOf before after = .ok sources)
    (hengine : d.see (sources.loadEngine host) = .ok engine)
    (htemplate : d.see (sources.readTemplate host) = .ok template)
    (hmissing : engine.missingTags template = .ok missing)
    (hadded : ∀ entry ∈ added, isTagName entry.1.toList = true)
    (hadds : Arguments.AddsBeside added before after before' after')
    (hcheck : Arguments.IsCheckLine before' after' checking)
    (hrender : Arguments.IsRenderLine before' after' rendering) :
    ((d.outcome checking).exitCode = 0 ↔ ∀ name ∈ missing, name ∈ added.map Prod.fst) ∧
      ((d.outcome rendering).exitCode = 0 ↔ ∀ name ∈ missing, name ∈ added.map Prod.fst) := by
  obtain ⟨sources', hsources', hextends⟩ := Arguments.exists_sourcesOf_of_addsBeside hadds hsources
  have hrenders : (d.outcome rendering).exitCode = 0 ↔
      ∀ name ∈ missing, name ∈ added.map Prod.fst := by
    rw [outcome_of_isRenderLine hrender, hsources']
    exact Command.exitCode_runRender_eq_zero_iff_of_extends hengine htemplate hmissing hextends
      hadded
  exact ⟨(exitCode_eq_zero_iff_of_lines hcheck hrender).trans hrenders, hrenders⟩

/-- Listing tags with the check is a dry run of rendering, and the names that it lists as missing
are those that are left to be assigned. All command lines that are accepted for the check are of
this kind. -/
theorem exitCode_check_eq_zero_iff_render (d : Directory) :
    (∀ before after checking rendering, Arguments.IsCheckLine before after checking →
      Arguments.IsRenderLine before after rendering →
      ((d.outcome checking).exitCode = 0 ↔ (d.outcome rendering).exitCode = 0) ∧
      ∀ more, (d.outcome checking).errors = "Error: Model is missing " ++ more →
        ∃ sources template missing, Arguments.read checking = .ok ⟨sources, .tags true⟩ ∧
          d.see (sources.readTemplate host) = .ok template ∧
          ListsMissing template missing (d.outcome checking).errors ∧
          ∀ (added : List (String × String)) (before' after' : List Arguments.SourceOption)
            (checking' rendering' : List String),
            (∀ entry ∈ added, isTagName entry.1.toList = true) →
            Arguments.AddsBeside added before after before' after' →
            Arguments.IsCheckLine before' after' checking' →
            Arguments.IsRenderLine before' after' rendering' →
            ((d.outcome checking').exitCode = 0 ↔ ∀ name ∈ missing, name ∈ added.map Prod.fst) ∧
            ((d.outcome rendering').exitCode = 0 ↔
              ∀ name ∈ missing, name ∈ added.map Prod.fst)) ∧
    ∀ accepted sources, Arguments.read accepted = .ok ⟨sources, .tags true⟩ →
      ∃ before after checking rendering, Arguments.IsCheckLine before after checking ∧
        Arguments.IsRenderLine before after rendering ∧
        (accepted = checking ∨ accepted = checking ++ ["--"]) ∧
        d.outcome accepted = d.outcome checking ∧
        ((d.outcome accepted).exitCode = 0 ↔ (d.outcome rendering).exitCode = 0) := by
  constructor
  · intro before after checking rendering hcheck hrender
    refine ⟨exitCode_eq_zero_iff_of_lines hcheck hrender, fun more h => ?_⟩
    have hread := Arguments.read_tags_check hcheck
    rw [outcome_of_isCheckLine hcheck] at h ⊢
    cases hsources : Arguments.sourcesOf before after with
    | error stop =>
      rw [hsources] at h
      exact absurd h (stop.errors_outcome_ne more)
    | ok sources =>
      rw [hsources, Result.map_ok] at hread
      rw [hsources] at h
      obtain ⟨engine, template, missing, hengine, htemplate, hmissing, hne, herrors⟩ :=
        Command.exists_missing_of_errors h
      refine ⟨sources, template, missing, hread, htemplate, ?_,
        fun added before' after' checking' rendering' hadded hadds hcheck' hrender' =>
          exitCode_eq_zero_iff_of_addsBeside hsources hengine htemplate hmissing hadded hadds
            hcheck' hrender'⟩
      dsimp only
      rw [herrors]
      exact listsMissing_of_missingTags hmissing hne
  · intro accepted sources hread
    obtain ⟨before, after, checking, rendering, hcheck, hrender, haccepted⟩ :=
      Arguments.exists_isCheckLine_of_read hread
    have hsame : d.outcome accepted = d.outcome checking := by
      rcases haccepted with rfl | rfl
      · rfl
      · exact outcome_eq_of_read (Arguments.read_append_terminator hcheck)
    refine ⟨before, after, checking, rendering, hcheck, hrender, haccepted, hsame, ?_⟩
    rw [hsame]
    exact exitCode_eq_zero_iff_of_lines hcheck hrender

theorem exitCode_check_eq_zero_iff_render_sample :
    ((⟨.empty, "\x7b\x7bc\x7d\x7d\x7b\x7bb\x7d\x7d".toUTF8⟩ : Directory).outcome
        ["render"]).exitCode ≠ 0 ∧
      ((⟨.empty, "\x7b\x7bc\x7d\x7d\x7b\x7bb\x7d\x7d".toUTF8⟩ : Directory).outcome
        ["tags", "-s", "b=1", "--check", "-sc="]).exitCode = 0 ∧
      ((⟨.empty, "\x7b\x7bc\x7d\x7d\x7b\x7bb\x7d\x7d".toUTF8⟩ : Directory).outcome
        ["render", "--set=b=1", "-s", "c="]).exitCode = 0 := by
  have hcheck : Arguments.IsCheckLine [] [] ["tags", "--check"] :=
    ⟨[], ["--check"], .nil, ⟨[], [], [], [], rfl, rfl, .nil, .nil⟩, rfl⟩
  have hrender : Arguments.IsRenderLine [] [] ["render"] := ⟨[], [], .nil, .nil, rfl⟩
  have hcheck' : Arguments.IsCheckLine [] [.assignment "b=1", .assignment "c="]
      ["tags", "-s", "b=1", "--check", "-sc="] := by
    refine ⟨[], _, .nil, ⟨[.assignment "b=1"], [.assignment "c="], ["-s", "b=1"], ["-sc="], rfl,
      rfl, ?_, ?_⟩, rfl⟩
    · exact .apart (fun scope => by cases scope <;> decide) (by decide) .nil
    · exact .attached (fun scope => by cases scope <;> decide) .nil
  have hrender' : Arguments.IsRenderLine [] [.assignment "b=1", .assignment "c="]
      ["render", "--set=b=1", "-s", "c="] := by
    refine ⟨[], ["--set=b=1", "-s", "c="], .nil, ?_, rfl⟩
    apply Arguments.Spells.attached (fun scope => by cases scope <;> decide)
    exact .apart (fun scope => by cases scope <;> decide) (by decide) .nil
  have hadds : Arguments.AddsBeside [("b", "1"), ("c", "")] [] [] []
      [.assignment "b=1", .assignment "c="] :=
    .inr ⟨.inl rfl, rfl, .add ("b", "1") (.add ("c", "") .nil)⟩
  obtain ⟨hsame, hmissing⟩ := (exitCode_check_eq_zero_iff_render
    ⟨.empty, "\x7b\x7bc\x7d\x7d\x7b\x7bb\x7d\x7d".toUTF8⟩).1 [] [] _ _ hcheck hrender
  obtain ⟨sources, template, missing, hread, htemplate, hlists, hadded⟩ :=
    hmissing "2 tag(s): c, b\n" (by decide +kernel)
  have hall : ∀ name ∈ missing, name ∈ [("b", "1"), ("c", "")].map Prod.fst := by
    have hsources : Arguments.read ["tags", "--check"] = .ok ⟨⟨[], [], none⟩, .tags true⟩ := by
      decide +kernel
    cases hsources.symm.trans hread
    have hinput : Directory.see ⟨.empty, "\x7b\x7bc\x7d\x7d\x7b\x7bb\x7d\x7d".toUTF8⟩
        (Sources.readTemplate host ⟨[], [], none⟩) = .ok "\x7b\x7bc\x7d\x7d\x7b\x7bb\x7d\x7d" := by
      decide +kernel
    cases hinput.symm.trans htemplate
    obtain ⟨tags, htags, hmem, -⟩ := hlists.in_order
    have hplaceholders : placeholders "\x7b\x7bc\x7d\x7d\x7b\x7bb\x7d\x7d" =
        .ok [⟨"c", 0, 5⟩, ⟨"b", 5, 10⟩] := by decide +kernel
    cases hplaceholders.symm.trans htags
    intro name hname
    rcases List.mem_cons.1 (hmem name hname) with rfl | hname
    · decide
    · rw [List.mem_singleton.1 hname]
      decide
  obtain ⟨hchecks, hrenders⟩ := hadded _ _ _ _ _ (by decide) hadds hcheck' hrender'
  exact ⟨fun h => absurd (hsame.2 h) (by decide +kernel), hchecks.2 hall, hrenders.2 hall⟩

end Lines

end TagTemplate
