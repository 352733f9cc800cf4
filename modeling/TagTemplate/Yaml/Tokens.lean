import TagTemplate.Yaml.Scalar.Block
import TagTemplate.Yaml.Scalar.Plain
import TagTemplate.Yaml.Scalar.Quoted
import TagTemplate.Yaml.Tag

/-!
# The tokens of a document

Tokens are produced from left to right. Only a colon tells that what was read before it is a key, so
whatever may turn out to be one is remembered with its place among the tokens, and the colon puts
the tokens for a key there. A margin is the number of columns that belong to the open block
collections: zero outside of all, one inside a collection whose keys or entries stand at column
zero.
-/
namespace TagTemplate.Yaml

structure Candidate where
  /-- Whether its place allows nothing but a key. -/
  required : Bool
  place : Nat
  line : Nat
  column : Nat
  offset : Nat
  deriving Repr

/-- The tokens so far and what decides about those to come. -/
structure Scan where
  tokens : List Token
  count : Nat
  margin : Nat
  /-- The margins outside the innermost block collection, from the inside out. -/
  outerMargins : List Nat
  candidate : Option Candidate
  /-- The candidates outside the innermost flow collection, from the inside out. -/
  outerCandidates : List (Option Candidate)
  /-- Whether a key may begin here. -/
  keyAllowed : Bool

namespace Scan

def start : Scan := ⟨[], 0, 0, [], none, [], true⟩

def inFlow (s : Scan) : Bool := !s.outerCandidates.isEmpty

def insertAt (s : Scan) (place : Nat) (token : Token) : Scan :=
  let (later, earlier) := s.tokens.splitAt (s.count - place)
  { s with tokens := later ++ token :: earlier, count := s.count + 1 }

def push (s : Scan) (token : Token) : Scan :=
  { s with tokens := token :: s.tokens, count := s.count + 1 }

/-- Gives up the candidate, which must not be one that is required. -/
def dropCandidate (s : Scan) : Except Fault Scan :=
  if s.candidate.any Candidate.required then .error .missingColon
  else .ok { s with candidate := none }

/-- Takes what begins at a cell as a candidate, if a key may begin there. -/
def noteCandidate (s : Scan) (c : Cell) : Except Fault Scan :=
  if s.keyAllowed then do
    let s ← s.dropCandidate
    let required := !s.inFlow && s.margin == c.column + 1
    .ok { s with candidate := some ⟨required, s.count, c.line, c.column, c.offset⟩ }
  else .ok s

/-- A key takes a single line, of not too many bytes. -/
def Candidate.reaches (k : Candidate) (c : Cell) : Bool :=
  k.line == c.line && c.offset ≤ k.offset + 1024

/-- Opens a block collection at a column, unless it is open already. -/
def openBlock (s : Scan) (column place : Nat) (token : Token) : Scan :=
  if !s.inFlow && s.margin ≤ column then
    { s.insertAt place token with margin := column + 1, outerMargins := s.margin :: s.outerMargins }
  else s

/-- Closes the block collections beyond a margin, given the margins outside the innermost one. -/
def closeFrom (limit : Nat) (s : Scan) : List Nat → Scan
  | [] => { s with outerMargins := [] }
  | outer :: outers =>
    if limit < s.margin then closeFrom limit { s.push .blockEnd with margin := outer } outers
    else { s with outerMargins := outer :: outers }

def closeBlocks (s : Scan) (limit : Nat) : Scan :=
  if s.inFlow then s else closeFrom limit s s.outerMargins

/-- Skips blanks, comments, line breaks and byte order marks at the start of lines. Tabs are blanks
where no key may begin; a line break outside flow collections lets a key begin. -/
def skipGap (inFlow : Bool) (keyAllowed comment : Bool) : List Cell → Bool × List Cell
  | [] => (keyAllowed, [])
  | c :: rest =>
    if c.isBreak then skipGap inFlow (keyAllowed || !inFlow) false rest
    else if c.isOrderMark then skipGap inFlow keyAllowed false rest
    else if comment then skipGap inFlow keyAllowed true rest
    else if c.char == ' ' || (c.char == '\t' && (inFlow || !keyAllowed)) then
      skipGap inFlow keyAllowed false rest
    else if c.char == '#' then skipGap inFlow keyAllowed true rest
    else (keyAllowed, c :: rest)

/-- Ends the document's content and whatever is open in it. -/
def endContent (s : Scan) : Except Fault Scan := do
  let s ← (s.closeBlocks 0).dropCandidate
  .ok { s with keyAllowed := false }

/-- A directive, or one of the lines that begin or end a document. -/
def documentToken (s : Scan) (c : Cell) (rest : List Cell) : Except Fault (Scan × List Cell) := do
  let s ← s.endContent
  if c.char == '%' then
    let (token, rest) ← Directive.read rest
    .ok (s.push token, rest)
  else
    .ok (s.push (if c.char == '-' then .documentStart else .documentEnd), rest.drop 2)

def openFlow (s : Scan) (c : Cell) (token : Token) : Except Fault Scan := do
  let s ← s.noteCandidate c
  .ok { s.push token with
    candidate := none, outerCandidates := s.candidate :: s.outerCandidates, keyAllowed := true }

def closeFlow (s : Scan) (token : Token) : Except Fault Scan := do
  let s ← s.dropCandidate
  let s := { s.push token with keyAllowed := false }
  match s.outerCandidates with
  | [] => .ok s
  | candidate :: outer => .ok { s with candidate, outerCandidates := outer }

def flowEntry (s : Scan) : Except Fault Scan := do
  let s ← s.dropCandidate
  .ok { s.push .flowEntry with keyAllowed := true }

def blockEntry (s : Scan) (c : Cell) : Except Fault Scan := do
  if !s.inFlow && !s.keyAllowed then .error .misplacedIndicator
  else
    let s ← (s.openBlock c.column s.count .blockSequenceStart).dropCandidate
    .ok { s.push .blockEntry with keyAllowed := true }

def explicitKey (s : Scan) (c : Cell) : Except Fault Scan := do
  if !s.inFlow && !s.keyAllowed then .error .misplacedIndicator
  else
    let s ← (s.openBlock c.column s.count .blockMappingStart).dropCandidate
    .ok { s.push .key with keyAllowed := !s.inFlow }

/-- The colon of a value whose key is no candidate. -/
def bareValue (s : Scan) (c : Cell) : Except Fault Scan :=
  if !s.inFlow && !s.keyAllowed then .error .misplacedIndicator
  else
    let s := { s with candidate := none }
    .ok { (s.openBlock c.column s.count .blockMappingStart).push .value with
      keyAllowed := !s.inFlow }

/-- The colon of a value, which makes the candidate a key. -/
def value (s : Scan) (c : Cell) : Except Fault Scan :=
  match s.candidate with
  | none => s.bareValue c
  | some k =>
    if Candidate.reaches k c then
      let s := (s.insertAt k.place .key).openBlock k.column k.place .blockMappingStart
      .ok { s.push .value with candidate := none, keyAllowed := false }
    else if k.required then .error .missingColon
    else s.bareValue c

/-- Any other token that may be a key or a part of one. -/
def content (s : Scan) (c : Cell) (rest : List Cell) : Except Fault (Scan × List Cell) := do
  let s := { ← s.noteCandidate c with keyAllowed := false }
  if c.char == '&' then
    let (name, rest) ← Anchor.read rest
    .ok (s.push (.anchor name), rest)
  else if c.char == '*' then
    let (name, rest) ← Anchor.read rest
    .ok (s.push (.alias name), rest)
  else if c.char == '!' then
    let (token, rest) ← Tag.read s.inFlow (c :: rest)
    .ok (s.push token, rest)
  else if c.char == '"' || c.char == '\'' then
    let (text, rest) ← Quoted.read (c.char == '"') rest
    .ok (s.push (.scalar false text), rest)
  else
    let (text, broken, rest) ← Plain.read s.inFlow s.margin (c :: rest)
    .ok ({ s.push (.scalar true text) with keyAllowed := broken }, rest)

def block (s : Scan) (c : Cell) (rest : List Cell) : Except Fault (Scan × List Cell) := do
  let s ← s.dropCandidate
  let (text, rest) ← Block.read (c.char == '>') s.margin rest
  .ok ({ s.push (.scalar false text) with keyAllowed := true }, rest)

/-- Whether a plain scalar or one of the other tokens of `content` may begin at a character. -/
def mayBegin (inFlow : Bool) (c : Char) (rest : List Cell) : Bool :=
  if c == '-' then
    match rest with
    | [] => true
    | d :: _ => !d.isBlank
  else if c == '?' || c == ':' then !inFlow && !Cell.atGap rest
  else c != '\t' && !"],\x7b\x7d[#|>%@`".toList.contains c

/-- The token that begins at a cell, which is neither blank nor a break. -/
def token (s : Scan) (c : Cell) (rest : List Cell) : Except Fault (Scan × List Cell) :=
  if (c.column == 0 && c.char == '%') || Cell.atDocumentMarker (c :: rest) then
    s.documentToken c rest
  else
    let alone := s.inFlow || Cell.atGap rest
    match c.char with
    | '[' => (s.openFlow c .flowSequenceStart).map (·, rest)
    | '\x7b' => (s.openFlow c .flowMappingStart).map (·, rest)
    | ']' => (s.closeFlow .flowSequenceEnd).map (·, rest)
    | '\x7d' => (s.closeFlow .flowMappingEnd).map (·, rest)
    | ',' => s.flowEntry.map (·, rest)
    | char =>
      if char == '-' && Cell.atGap rest then (s.blockEntry c).map (·, rest)
      else if char == '?' && alone then (s.explicitKey c).map (·, rest)
      else if char == ':' && alone then (s.value c).map (·, rest)
      else if (char == '|' || char == '>') && !s.inFlow then s.block c rest
      else if mayBegin s.inFlow char rest then s.content c rest
      else .error .unexpectedCharacter

/-- The scan at the end of what is left. Each token takes at least one cell, so the first argument,
which bounds the number of tokens, need not exceed the number of cells. -/
def run : Nat → Scan → List Cell → Except Fault Scan
  | 0, s, _ => s.endContent
  | bound + 1, s, cells =>
    match skipGap s.inFlow s.keyAllowed false cells with
    | (_, []) => s.endContent
    | (keyAllowed, c :: rest) => do
      let (s, rest) ← ({ s with keyAllowed }.closeBlocks (c.column + 1)).token c rest
      run bound s rest

end Scan

def tokens (text : List Char) : Except Fault (List Token) :=
  if text.all isAllowedChar then do
    let cells := Cell.lay text
    let s ← Scan.start.run (cells.length + 1) cells
    .ok s.tokens.reverse
  else .error .forbiddenCharacter

end TagTemplate.Yaml
