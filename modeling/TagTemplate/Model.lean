import Std.Data.HashMap
import TagTemplate.Table

/-!
# Models

A model gives values to names. Any container that can be asked for a name will do: a table, a hash
map with whatever hash function, or a function alone. So will a reference to a model, and an object
of which no more is known than that it can be asked.
-/
namespace TagTemplate

/-- A container that may give a name its replacement text; names are compared exactly. -/
class Model (M : Type u) where
  lookup : M → String → Option String

namespace Model

instance : Model (Table String) := ⟨Table.lookup⟩

instance [Hashable String] : Model (Std.HashMap String String) := ⟨fun m name => m[name]?⟩

instance : Model (String → Option String) := ⟨id⟩

/-- A hash map into which entries are put one after the other. -/
def hashOfList [Hashable String] (entries : List (String × String)) : Std.HashMap String String :=
  entries.foldl (fun m entry => m.insert entry.1 entry.2) ∅

/-- A model that is asked through a reference to it. -/
structure Reference (M : Type u) where
  target : M

instance [Model M] : Model (Reference M) := ⟨fun reference => lookup reference.target⟩

@[simp] theorem lookup_reference [Model M] (model : M) (name : String) :
    lookup (Reference.mk model) name = lookup model name := rfl

/-- A model of a kind that is not told. -/
structure Object where
  {Carrier : Type u}
  [model : Model Carrier]
  carrier : Carrier

instance : Model Object := ⟨fun object => object.model.lookup object.carrier⟩

@[simp] theorem lookup_object [Model M] (model : M) (name : String) :
    lookup (Object.mk model) name = lookup model name := rfl

end Model
end TagTemplate
