import TagTemplate.File.Error
import TagTemplate.Json.Fault
import TagTemplate.Text.Quoted
import TagTemplate.Yaml.Fault

/-!
# Model file errors

Why a model file is not loaded, or an assignment not applied.
-/
namespace TagTemplate

inductive LoadError where
  | file (cause : FileError)
  | yaml (cause : Yaml.Fault)
  | json (cause : Json.Fault)
  | invalidTagName (name : String)
  /-- The value is neither text nor number, boolean or null. -/
  | unsupportedValue (name : String)
  /-- The number may have been rounded as it was read. -/
  | inexactNumber (name : String)
  /-- The text is not a tag name, an equals sign and a value. -/
  | invalidAssignment (text : String)
  deriving DecidableEq, Repr

namespace LoadError

/-- What is behind the error, if it is not the model file itself. -/
def cause? : LoadError → Option String
  | file cause => some cause.message
  | yaml cause => some cause.message
  | json cause => some cause.message
  | _ => none

def message : LoadError → String
  | file cause => "Failed to read model file: " ++ cause.message
  | yaml cause => "Failed to parse YAML: " ++ cause.message
  | json cause => "Failed to parse JSON: " ++ cause.message
  | invalidTagName name => "Invalid tag name: " ++ Text.quoted name
  | unsupportedValue name =>
    "Value of " ++ Text.quoted name ++ " must be a string, number, boolean or null"
  | inexactNumber name =>
    "Number for " ++ Text.quoted name ++ " cannot be represented exactly, quote it as a string"
  | invalidAssignment text =>
    "Invalid assignment " ++ Text.quoted text ++ ", expected NAME=VALUE"

end LoadError
end TagTemplate
