import TagTemplate.Yaml.Token

/-!
# Nodes of a document

A document is a tree of nodes. Aliases refer to nodes by numbers that their anchors have; if several
nodes have one number, the last of them in the document is meant.
-/
namespace TagTemplate.Yaml

/-- What may be written before the content of a node. -/
structure Properties where
  anchor : Option Nat
  tag : Option TagName
  deriving DecidableEq, Repr

inductive Node where
  | alias (anchor : Nat)
  | scalar (properties : Properties) (plain : Bool) (text : String)
  | sequence (properties : Properties) (items : List Node)
  | mapping (properties : Properties) (entries : List (Node × Node))

namespace Node

def empty : Node := .scalar ⟨none, none⟩ true ""

mutual

/-- One for each scalar and alias, and two for each collection. -/
def weight : Node → Nat
  | .alias _ => 1
  | .scalar .. => 1
  | .sequence _ items => 2 + itemsWeight items
  | .mapping _ entries => 2 + entriesWeight entries

def itemsWeight : List Node → Nat
  | [] => 0
  | node :: items => node.weight + itemsWeight items

def entriesWeight : List (Node × Node) → Nat
  | [] => 0
  | (key, value) :: entries => key.weight + value.weight + entriesWeight entries

end

def bind (properties : Properties) (node : Node) : List (Nat × Node) :=
  (properties.anchor.map fun anchor => (anchor, node)).toList

mutual

/-- The anchored nodes with their numbers, in the order in which they begin. -/
def anchored : Node → List (Nat × Node)
  | .alias _ => []
  | .scalar properties plain text => bind properties (.scalar properties plain text)
  | .sequence properties items =>
    bind properties (.sequence properties items) ++ anchoredItems items
  | .mapping properties entries =>
    bind properties (.mapping properties entries) ++ anchoredEntries entries

def anchoredItems : List Node → List (Nat × Node)
  | [] => []
  | node :: items => node.anchored ++ anchoredItems items

def anchoredEntries : List (Node × Node) → List (Nat × Node)
  | [] => []
  | (key, value) :: entries => key.anchored ++ value.anchored ++ anchoredEntries entries

end
end Node
end TagTemplate.Yaml
