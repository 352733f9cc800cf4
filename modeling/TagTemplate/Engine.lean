import TagTemplate.Template.Render
import TagTemplate.Text.Quoted

/-!
# Template engines

An engine owns a model whose names it checks as they come in, and renders templates against it.
-/
namespace TagTemplate

inductive ModelError where
  | invalidTagName (name : String)
  deriving DecidableEq, Repr

def ModelError.message : ModelError → String
  | invalidTagName name => "invalid tag name: " ++ Text.quoted name

structure Engine where
  model : Table String

namespace Engine

def empty : Engine := ⟨Table.empty⟩

/-- Binds a name, whatever it was bound to before. -/
def insert (engine : Engine) (name value : String) : Except ModelError Engine :=
  if isTagName name.toList then .ok ⟨engine.model.insert name value⟩
  else .error (.invalidTagName name)

/-- Binds several names in turn and stops at the first that is refused; the bindings before it
stay. -/
def extend (engine : Engine) : List (String × String) → Engine × Except ModelError Unit
  | [] => (engine, .ok ())
  | (name, value) :: entries =>
    match engine.insert name value with
    | .ok engine => engine.extend entries
    | .error e => (engine, .error e)

/-- An engine that owns the given model, if all its names are tag names. -/
def ofModel (model : Table String) : Except ModelError Engine :=
  match empty.extend model.toList with
  | (engine, .ok ()) => .ok engine
  | (_, .error e) => .error e

def render (engine : Engine) (template : String) : Except RenderError String :=
  TagTemplate.render engine.model template

/-- The names that a template uses and the model lacks, each once. -/
def missingTags (engine : Engine) (template : String) : Except RenderError (List String) :=
  (tagNames template).map fun names =>
    names.filter fun name => (Model.lookup engine.model name).isNone

end Engine
end TagTemplate
