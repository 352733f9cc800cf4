import TagTemplate.Document.Value
import TagTemplate.Engine
import TagTemplate.ModelFile.Error

/-!
# Model files

The values that model files and assignments give to tag names. A document is taken as a whole or not
at all: its entries are checked in order of their keys, of which the last entry counts, and the
first at fault is the one that is reported. Later values win over earlier ones.
-/
namespace TagTemplate

structure ModelFile where
  values : Table String

namespace ModelFile

def empty : ModelFile := ⟨Table.empty⟩

def nonFiniteText : NonFinite → String
  | .nan => ".nan"
  | .infinity false => ".inf"
  | .infinity true => "-.inf"

def valueText (name : String) : Value → Except LoadError String
  | .null => .ok ""
  | .bool b => .ok (if b then "true" else "false")
  | .number n => if n.isExact then .ok n.text else .error (.inexactNumber name)
  | .nonFinite x => .ok (nonFiniteText x)
  | .string text => .ok text
  | .sequence _ => .error (.unsupportedValue name)
  | .mapping _ => .error (.unsupportedValue name)

/-- Checks the name of an entry, and then its value. -/
def checkEntry (entry : String × Value) : Except LoadError (String × String) :=
  if isTagName entry.1.toList then (valueText entry.1 entry.2).map fun text => (entry.1, text)
  else .error (.invalidTagName entry.1)

/-- The values of a table whose entries are all sound. -/
def ofTable (entries : Table Value) : Except LoadError ModelFile :=
  (entries.toList.mapM checkEntry).map fun values => ⟨Table.ofList values⟩

def ofDocument (document : Document) : Except LoadError ModelFile :=
  ofTable (Table.ofList document)

/-- Both models in one, where a value of the second wins. -/
def merge (model other : ModelFile) : ModelFile := ⟨model.values.merge other.values⟩

/-- A name, blanks aside, and the value after the first equals sign. -/
def parseAssignment (text : String) : Except LoadError (String × String) :=
  match text.toList.dropWhile (· != '=') with
  | [] => .error (.invalidAssignment text)
  | _ :: value =>
    let name := Text.trim (text.toList.takeWhile (· != '='))
    if isTagName name then .ok (String.ofList name, String.ofList value)
    else .error (.invalidAssignment text)

def set (model : ModelFile) (assignment : String) : Except LoadError ModelFile :=
  (parseAssignment assignment).map fun (name, value) => ⟨model.values.insert name value⟩

end ModelFile
end TagTemplate
