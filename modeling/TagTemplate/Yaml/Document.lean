import TagTemplate.Text.Blank
import TagTemplate.Yaml.Resolve
import TagTemplate.Yaml.Tokens
import TagTemplate.Yaml.Tree

/-!
# YAML documents

The entries of a document whose root is a mapping. A text of blanks, a stream without a document and
a document without content have none. Aliases stand for copies of their nodes, and there is a limit
to how many are expanded. Entries are kept in the order in which they are written.
-/
namespace TagTemplate.Yaml

/-- The anchored nodes of a document, the last in front, and how many aliases may be expanded. -/
structure Anchors where
  nodes : List (Nat × Node)
  limit : Nat

def Anchors.of (root : Node) : Anchors := ⟨root.anchored.reverse, 100 * root.weight⟩

/-- Values are read with a count of the aliases that were expanded. -/
abbrev Expansion := StateT Nat (Except Fault)

namespace Expansion

/-- The node that is meant by a node: by an alias, the one with its number. -/
def target (anchors : Anchors) : Node → Expansion Node
  | .alias number => do
    let count := (← get) + 1
    if anchors.limit < count then throw .tooManyAliases
    else
      set count
      match anchors.nodes.lookup number with
      | some node => return node
      | none => throw .unknownAnchor
  | node => return node

def keyOfValue : Value → Except Fault String
  | .string text => .ok text
  | _ => .error .unsuitableKey

/-- The value of a node in which collections may be nested as deep as the first argument after the
anchors says. -/
def value (anchors : Anchors) : Nat → Node → Expansion Value
  | depth, node => do
    match ← target anchors node with
    | .alias _ => throw .unknownAnchor
    | .scalar properties plain text => scalarValue properties.tag plain text
    | .sequence properties items =>
      checkTag properties.tag
      match depth with
      | 0 => throw .tooDeep
      | depth + 1 => return .sequence (← items.mapM (value anchors depth))
    | .mapping properties entries =>
      checkTag properties.tag
      match depth with
      | 0 => throw .tooDeep
      | depth + 1 =>
        return .mapping (← entries.mapM fun (key, item) => do
          let key ← keyOfValue (← value anchors depth key)
          return (key, ← value anchors depth item))

/-- The key of an entry of the root, which is a text whatever it looks like. -/
def rootKey (anchors : Anchors) (node : Node) : Expansion String := do
  match ← target anchors node with
  | .scalar _ _ text => return text
  | _ => throw .unsuitableKey

def rootEntries (anchors : Anchors) (entries : List (Node × Node)) : Expansion Document :=
  entries.mapM fun (key, item) => do
    let key ← rootKey anchors key
    return (key, ← value anchors (depthLimit - 1) item)

end Expansion

def entriesOfRoot (root : Node) : Except Fault Document :=
  match root with
  | .mapping _ entries =>
    ((Expansion.rootEntries (.of root) entries).run 0).map Prod.fst
  | .scalar _ true "" => .ok []
  | _ => .error .notAMapping

def readDocument (text : List Char) : Except Fault Document := do
  if (Text.trim text).isEmpty then .ok []
  else
    match ← tree (← tokens text) with
    | none => .ok []
    | some root => entriesOfRoot root

end TagTemplate.Yaml
