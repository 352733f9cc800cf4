import TagTemplate.File.Host
import TagTemplate.File.Path
import TagTemplate.Json.Document
import TagTemplate.ModelFile.Basic
import TagTemplate.Yaml.Document

/-!
# Loading model files

A model file is JSON if its path has the extension `json` in any case, and YAML otherwise.
-/
namespace TagTemplate.ModelFile

def ofYaml (text : String) : Except LoadError ModelFile :=
  match Yaml.readDocument text.toList with
  | .ok document => ofDocument document
  | .error fault => .error (.yaml fault)

def ofJson (text : String) : Except LoadError ModelFile :=
  match Json.readDocument text.toList with
  | .ok document => ofDocument document
  | .error fault => .error (.json fault)

def isJsonPath (path : String) : Bool :=
  (Path.extension? path).any fun ext => ext.map Char.toLower == ['j', 's', 'o', 'n']

def ofText (path text : String) : Except LoadError ModelFile :=
  if isJsonPath path then ofJson text else ofYaml text

variable {m : Type → Type} [Monad m]

def load (host : Host m) (path : String) : m (Except LoadError ModelFile) := do
  match ← host.readFile path with
  | .ok text => return ofText path text
  | .error e => return .error (.file e)

end TagTemplate.ModelFile
