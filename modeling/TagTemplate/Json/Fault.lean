/-!
# Faults of JSON documents

Why a text is not a JSON document that can be a model.
-/
namespace TagTemplate.Json

inductive Fault where
  /-- A character that cannot stand where it does, or a number beyond all doubles. -/
  | malformed
  /-- The text ends too early. -/
  | truncated
  /-- A value that is no object, where an object is wanted. -/
  | notAnObject
  deriving DecidableEq, Repr

namespace Fault

/-- The fault of a text in which something else is wanted than what is left. -/
def expected : List Char → Fault
  | [] => truncated
  | _ :: _ => malformed

/-- In words of this library's own, which are not those of other JSON parsers. -/
def message : Fault → String
  | malformed => "the text is not well-formed"
  | truncated => "the text ends too early"
  | notAnObject => "the text is not an object"

end Fault
end TagTemplate.Json
