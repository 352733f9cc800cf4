import TagTemplate.Yaml.Fault
import TagTemplate.Yaml.Node

/-!
# The tree of a document

The nodes that a list of tokens stands for. A list holds at most one document, which directives and
markers may surround. Collections are nested at most `depthLimit` deep.
-/
namespace TagTemplate.Yaml

def depthLimit : Nat := 128

abbrev Handles := List (List Char × TagName)

/-- What handles stand for where no directive says otherwise. -/
def Handles.standard : Handles :=
  [(['!'], "!".toUTF8.toList), (['!', '!'], "tag:yaml.org,2002:".toUTF8.toList)]

structure Reading where
  tokens : List Token
  /-- The names that are bound, with the numbers of the nodes they are bound to. -/
  anchors : List (List Char × Nat)

abbrev Reader := StateT Reading (Except Fault)

namespace Reader

def peek : Reader (Option Token) := do return (← get).tokens.head?

def skip : Reader Unit := modify fun r => { r with tokens := r.tokens.tail }

def next (expected : List Token) : Reader Bool := do return (← peek).any expected.contains

/-- Numbers a node after the names that are bound, and binds a name to it. -/
def bindAnchor (name : List Char) : Reader Nat := do
  let anchors := (← get).anchors
  let number := anchors.length
  modify fun r =>
    { r with anchors := (name, number) :: anchors.filter fun other => other.1 != name }
  return number

def anchor? : Reader (Option (List Char)) := do
  match ← peek with
  | some (.anchor name) => skip; return some name
  | _ => return none

def tag? (handles : Handles) : Reader (Option TagName) := do
  match ← peek with
  | some (.tag [] name) => skip; return some name
  | some (.tag handle suffix) =>
    match handles.lookup handle with
    | some start => skip; return some (start ++ suffix)
    | none => throw .badTag
  | _ => return none

/-- An anchor and a tag in either order; either may be missing. -/
def properties (handles : Handles) : Reader Properties := do
  let (name, tag) ← do
    match ← anchor? with
    | some name => pure (some name, ← tag? handles)
    | none =>
      match ← tag? handles with
      | some tag => pure (← anchor?, some tag)
      | none => pure (none, none)
  match name with
  | some name => return ⟨some (← bindAnchor name), tag⟩
  | none => return ⟨none, tag⟩

/-- A way to read a node, given whether it may be a block collection, and whether it may be a
sequence at the indentation of its parent. -/
abbrev NodeReader := (inBlock indentless : Bool) → Reader Node

/-- An item or value in a block collection, or nothing before one of the given tokens. -/
def blockNode (node : NodeReader) (indentless : Bool) (ends : List Token) : Reader Node := do
  if ← next ends then return .empty else node true indentless

/-- The items of a block sequence. The first argument bounds their number. -/
def blockSequence (node : NodeReader) : Nat → Reader (List Node)
  | 0 => throw .unexpectedToken
  | bound + 1 => do
    match ← peek with
    | some .blockEntry =>
      skip
      let item ← blockNode node false [.blockEntry, .blockEnd]
      return item :: (← blockSequence node bound)
    | some .blockEnd => skip; return []
    | _ => throw .unexpectedToken

/-- The items of a sequence that has no indentation of its own. -/
def indentlessSequence (node : NodeReader) : Nat → Reader (List Node)
  | 0 => throw .unexpectedToken
  | bound + 1 => do
    match ← peek with
    | some .blockEntry =>
      skip
      let item ← blockNode node false [.blockEntry, .key, .value, .blockEnd]
      return item :: (← indentlessSequence node bound)
    | _ => return []

def blockMapping (node : NodeReader) : Nat → Reader (List (Node × Node))
  | 0 => throw .unexpectedToken
  | bound + 1 => do
    match ← peek with
    | some .key =>
      skip
      let ends := [.key, .value, .blockEnd]
      let key ← blockNode node true ends
      let value ←
        if ← next [.value] then do skip; blockNode node true ends
        else pure .empty
      return (key, value) :: (← blockMapping node bound)
    | some .blockEnd => skip; return []
    | _ => throw .unexpectedToken

/-- The value in a flow collection after its key, or nothing before one of the given tokens. -/
def flowValue (node : NodeReader) (ends : List Token) : Reader Node := do
  if ← next [.value] then
    skip
    if ← next ends then return .empty else node false false
  else return .empty

/-- A single entry in a flow sequence, which makes a mapping of its own. If it has no key, the token
in its place is passed over. -/
def flowPair (node : NodeReader) : Reader Node := do
  skip
  let key ←
    if ← next [.value, .flowEntry, .flowSequenceEnd] then do skip; pure .empty
    else node false false
  let value ← flowValue node [.flowEntry, .flowSequenceEnd]
  return .mapping ⟨none, none⟩ [(key, value)]

/-- Passes over the comma before any entry of a flow collection but the first. -/
def separator (first : Bool) : Reader Unit := do
  if first then return ()
  else if ← next [.flowEntry] then skip
  else throw .unexpectedToken

def flowSequence (node : NodeReader) (pair : Reader Node) (first : Bool) :
    Nat → Reader (List Node)
  | 0 => throw .unexpectedToken
  | bound + 1 => do
    unless ← next [.flowSequenceEnd] do separator first
    match ← peek with
    | some .flowSequenceEnd => skip; return []
    | some .key =>
      let item ← pair
      return item :: (← flowSequence node pair false bound)
    | _ =>
      let item ← node false false
      return item :: (← flowSequence node pair false bound)

def flowMapping (node : NodeReader) (first : Bool) : Nat → Reader (List (Node × Node))
  | 0 => throw .unexpectedToken
  | bound + 1 => do
    unless ← next [.flowMappingEnd] do separator first
    match ← peek with
    | some .flowMappingEnd => skip; return []
    | some .key =>
      skip
      let key ←
        if ← next [.value, .flowEntry, .flowMappingEnd] then pure .empty
        else node false false
      let value ← flowValue node [.flowEntry, .flowMappingEnd]
      return (key, value) :: (← flowMapping node false bound)
    | _ =>
      let key ← node false false
      return (key, .empty) :: (← flowMapping node false bound)

/-- A node in which collections may be nested as deep as the third argument says. The second one
bounds the number of items in a collection. -/
def node (handles : Handles) (bound : Nat) : Nat → NodeReader
  | depth, inBlock, indentless => do
    if let some (.alias name) ← peek then
      match (← get).anchors.lookup name with
      | some number => skip; return .alias number
      | none => throw .unknownAnchor
    let properties ← properties handles
    let inside : Reader NodeReader :=
      match depth with
      | 0 => throw .tooDeep
      | depth + 1 => return node handles bound depth
    let pair : Reader Node :=
      match depth with
      | 0 => throw .tooDeep
      | 1 => throw .tooDeep
      | depth + 2 => flowPair (node handles bound depth)
    match ← peek with
    | some (.scalar plain text) => skip; return .scalar properties plain text
    | some .flowSequenceStart =>
      skip
      return .sequence properties (← flowSequence (← inside) pair true bound)
    | some .flowMappingStart =>
      skip
      return .mapping properties (← flowMapping (← inside) true bound)
    | some .blockEntry =>
      if indentless then return .sequence properties (← indentlessSequence (← inside) bound)
      else if properties.anchor.isSome || properties.tag.isSome then
        return .scalar properties true ""
      else throw .unexpectedToken
    | some .blockSequenceStart =>
      if inBlock then
        skip
        return .sequence properties (← blockSequence (← inside) bound)
      else throw .unexpectedToken
    | some .blockMappingStart =>
      if inBlock then
        skip
        return .mapping properties (← blockMapping (← inside) bound)
      else throw .unexpectedToken
    | _ =>
      if properties.anchor.isSome || properties.tag.isSome then
        return .scalar properties true ""
      else throw .unexpectedToken

/-- What the directives at the start of a document make handles stand for, given whether there has
been a version and what handles stand for already. The first argument bounds their number. -/
def directives : Nat → Bool → Handles → Reader Handles
  | 0, _, handles => return handles
  | bound + 1, versioned, handles => do
    match ← peek with
    | some (.version major minor) =>
      if versioned || major ≠ 1 || (minor ≠ 1 && minor ≠ 2) then throw .badDirective
      else
        skip
        directives bound true handles
    | some (.tagHandle handle start) =>
      if (handles.lookup handle).isSome then throw .badDirective
      else
        skip
        directives bound versioned ((handle, start) :: handles)
    | _ => return handles

/-- What follows the line that begins a document. -/
def content (handles : Handles) (bound : Nat) : Reader Node := do
  match ← peek with
  | none => return .empty
  | some (.version ..) => return .empty
  | some (.tagHandle ..) => return .empty
  | some .documentStart => return .empty
  | some .documentEnd => return .empty
  | some _ => node handles bound depthLimit true false

def document : Reader Node := do
  let bound := (← get).tokens.length
  let handles ← directives bound false []
  let handles := handles ++ Handles.standard
  if ← next [.documentStart] then
    skip
    content handles bound
  else if (← get).tokens.length < bound then throw .unexpectedToken
  else node handles bound depthLimit true false

def stream : Reader (Option Node) := do
  if (← peek).isNone then return none
  else
    let root ← document
    modify fun r => { r with tokens := r.tokens.dropWhile (· == .documentEnd) }
    if (← peek).isNone then return some root else throw .moreThanOneDocument

end Reader

/-- The root of the document that some tokens make, if there is one. -/
def tree (tokens : List Token) : Except Fault (Option Node) :=
  (Reader.stream.run ⟨tokens, []⟩).map Prod.fst

end TagTemplate.Yaml
