import TagTemplate.Command.Arguments
import TagTemplate.Command.Report
import TagTemplate.ModelFile.Load

/-!
# Running commands

What the commands do on a host. Rendering loads the model, reads the template, renders it and only
then writes, so a failure writes nothing. Listing tags needs the template alone, and the model only
if the tags are to be checked against it.
-/
namespace TagTemplate

/-- How a command ends: its exit code, and what it says on its output and about its errors. -/
structure Outcome where
  exitCode : Nat
  output : String
  errors : String
  deriving DecidableEq, Repr

namespace Outcome

def success (output : String) : Outcome := ⟨0, output, ""⟩

def failure (output : String) (report : Report) : Outcome := ⟨1, output, report.text⟩

end Outcome

def FileError.report (e : FileError) : Report := ⟨e.message, []⟩

def LoadError.report (e : LoadError) : Report := ⟨e.message, e.cause?.toList⟩

def RenderError.report (e : RenderError) : Report := ⟨e.message, []⟩

def ModelError.report (e : ModelError) : Report := ⟨e.message, []⟩

variable {m : Type → Type} [Monad m]

namespace Sources

def loadModels (host : Host m) (model : ModelFile) : List String → m (Except Report ModelFile)
  | [] => return .ok model
  | path :: paths => do
    match ← ModelFile.load host path with
    | .ok file => loadModels host (model.merge file) paths
    | .error e => return .error (e.report.context ("Failed to load model " ++ Text.quoted path))

def assign (model : ModelFile) : List String → Except Report ModelFile
  | [] => .ok model
  | assignment :: assignments =>
    match model.set assignment with
    | .ok model => assign model assignments
    | .error e => .error e.report

def engineOf (model : ModelFile) : Except Report Engine :=
  (Engine.ofModel model.values).mapError fun e => e.report.context "Invalid model"

/-- The engine with the values of all model files, and those of all assignments over them. -/
def loadEngine (host : Host m) (sources : Sources) : m (Except Report Engine) := do
  match ← loadModels host .empty sources.models with
  | .ok model => return (assign model sources.assignments).bind engineOf
  | .error e => return .error e

/-- What the template is called in errors about it. -/
def templateName (sources : Sources) : String := sources.template.getD "<stdin>"

def readTemplate (host : Host m) (sources : Sources) : m (Except Report String) := do
  match sources.template with
  | some path =>
    return (← host.readFile path).mapError fun e =>
      e.report.context ("Failed to read template " ++ Text.quoted path)
  | none =>
    return (← host.readInput).mapError fun e =>
      e.report.context "Failed to read template from stdin"

def render (host : Host m) (sources : Sources) : m (Except Report String) := do
  match ← sources.loadEngine host with
  | .error e => return .error e
  | .ok engine =>
    match ← sources.readTemplate host with
    | .error e => return .error e
    | .ok template =>
      return (engine.render template).mapError fun e =>
        e.report.context ("Failed to render " ++ sources.templateName)

def scan (host : Host m) (sources : Sources) : m (Except Report (String × List String)) := do
  match ← sources.readTemplate host with
  | .error e => return .error e
  | .ok template =>
    match tagNames template with
    | .ok names => return .ok (template, names)
    | .error e => return .error (e.report.context ("Failed to scan " ++ sources.templateName))

def missingReport (names : List String) : Report :=
  ⟨"Model is missing " ++ toString names.length ++ " tag(s): " ++ String.intercalate ", " names, []⟩

def check (host : Host m) (sources : Sources) (template : String) : m (Except Report Unit) := do
  match ← sources.loadEngine host with
  | .error e => return .error e
  | .ok engine =>
    match engine.missingTags template with
    | .error e => return .error e.report
    | .ok [] => return .ok ()
    | .ok names => return .error (missingReport names)

end Sources

namespace Command

def runRender (host : Host m) (sources : Sources) (output : Option String) : m Outcome := do
  match ← sources.render host with
  | .error report => return .failure "" report
  | .ok rendered =>
    match output with
    | none => return .success rendered
    | some path =>
      match ← host.writeFile path rendered with
      | .ok () => return .success ""
      | .error e =>
        return .failure "" (e.report.context ("Failed to write output " ++ Text.quoted path))

def runTags (host : Host m) (sources : Sources) (check : Bool) : m Outcome := do
  match ← sources.scan host with
  | .error report => return .failure "" report
  | .ok (template, names) =>
    let listing := String.join (names.map fun name => name ++ "\n")
    if check then
      match ← sources.check host template with
      | .ok () => return .success listing
      | .error report => return .failure listing report
    else return .success listing

end Command

namespace Invocation

def run (host : Host m) (invocation : Invocation) : m Outcome :=
  match invocation.command with
  | .render output => Command.runRender host invocation.sources output
  | .tags check => Command.runTags host invocation.sources check

end Invocation

def versionText : String := "tagsub 0.1.0\n"

/-- In words and a layout of this library's own, which are not those of a help text that is made from
the options by a parser for command lines. -/
def usageText : String :=
  "Usage: tagsub [OPTIONS] [COMMAND]\n\n" ++
  "Commands:\n" ++
  "  render  Render the template (default command)\n" ++
  "  tags    List the tag names used by the template\n" ++
  "  help    Print this message\n\n" ++
  "Options:\n" ++
  "  -m, --model <MODEL>        Path to a YAML or JSON model file\n" ++
  "  -s, --set <SET>            Set a single value (NAME=VALUE)\n" ++
  "  -t, --template <TEMPLATE>  Template file (reads stdin when omitted)\n" ++
  "  -o, --output <OUTPUT>      Output file of render (writes stdout when omitted)\n" ++
  "      --check                Let tags fail if the model does not provide every tag\n" ++
  "  -h, --help                 Print help\n" ++
  "  -V, --version              Print version\n"

/-- The exit code and where a text goes are fixed. The texts are this library's own, and for bad usage
the text does not say what is wrong. -/
def Stop.outcome : Stop → Outcome
  | help => .success usageText
  | version => .success versionText
  | badUsage => ⟨2, "", usageText⟩

def runArguments (host : Host m) (arguments : List String) : m Outcome :=
  match Arguments.read arguments with
  | .ok invocation => invocation.run host
  | .error stop => return stop.outcome

end TagTemplate
