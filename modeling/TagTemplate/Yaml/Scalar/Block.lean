import TagTemplate.Yaml.Cell
import TagTemplate.Yaml.Fault

/-!
# Block scalars

A literal scalar keeps its lines; a folded one joins lines that do not begin with a blank. The
indentation is given in the header or that of the first line that is not empty, and the header also
says which of the line breaks at the end are kept.
-/
namespace TagTemplate.Yaml.Block

/-- Which line breaks at the end of a scalar are kept. -/
inductive Chomp where
  | strip
  | clip
  | keep
  deriving DecidableEq, Repr

structure Header where
  chomp : Chomp
  /-- The indentation relative to that of the parent. -/
  increment : Option Nat
  deriving DecidableEq, Repr

def chomp? (c : Char) : Option Chomp :=
  if c = '+' then some .keep else if c = '-' then some .strip else none

/-- An indicator of indentation, if there is one; it is not zero. -/
def readIncrement : List Cell → Except Fault (Option Nat × List Cell)
  | [] => .ok (none, [])
  | c :: rest =>
    if c.char.isDigit then
      if c.char == '0' then .error .badBlockHeader
      else .ok (some (c.char.toNat - '0'.toNat), rest)
    else .ok (none, c :: rest)

def readChomp : List Cell → Option Chomp × List Cell
  | [] => (none, [])
  | c :: rest =>
    match chomp? c.char with
    | some chomp => (some chomp, rest)
    | none => (none, c :: rest)

/-- The indicators after the one that begins the scalar, in either order. -/
def readIndicators (cells : List Cell) : Except Fault (Header × List Cell) := do
  match readChomp cells with
  | (some chomp, rest) =>
    let (increment, rest) ← readIncrement rest
    .ok (⟨chomp, increment⟩, rest)
  | (none, rest) =>
    match ← readIncrement rest with
    | (none, rest) => .ok (⟨.clip, none⟩, rest)
    | (some increment, rest) =>
      let (chomp, rest) := readChomp rest
      .ok (⟨chomp.getD .clip, some increment⟩, rest)

/-- What follows the rest of a line that holds nothing but blanks and a comment; none if it holds
something else. -/
def skipLine? (cells : List Cell) : Option (List Cell) :=
  let rest := cells.dropWhile Cell.isBlank
  let rest := if Cell.startsWith '#' rest then rest.dropWhile fun c => !c.isBreak else rest
  match rest with
  | [] => some []
  | c :: rest => if c.isBreak then some rest else none

structure Indentation where
  /-- The breaks of the empty lines, in reverse. -/
  breaks : List Char
  /-- The greatest number of spaces that were skipped in one line. -/
  width : Nat
  /-- From the first character that is neither. -/
  rest : List Cell

/-- Skips empty lines, and spaces up to a given indentation, or all if none is given. -/
def skipIndentation (indent : Option Nat) (breaks : List Char) (width : Nat) :
    List Cell → Except Fault Indentation
  | [] => .ok ⟨breaks, width, []⟩
  | c :: rest =>
    let inside := match indent with
      | none => true
      | some indent => c.column < indent
    if inside && c.char == ' ' then skipIndentation indent breaks (max width (c.column + 1)) rest
    else if inside && c.char == '\t' then .error .tabInIndentation
    else if c.isBreak then skipIndentation indent (c.char :: breaks) width rest
    else .ok ⟨breaks, width, c :: rest⟩

/-- The lines read so far; texts are in reverse. -/
structure Lines where
  text : List Char
  /-- The break after the last line that is not empty. -/
  break? : Option Char
  breaks : List Char
  /-- Whether that line begins with a blank. -/
  blank : Bool

/-- Adds a line, given whether it begins with a blank. -/
def Lines.add (lines : Lines) (folded : Bool) (line : List Char) (blank : Bool)
    (break? : Option Char) (breaks : List Char) : Lines :=
  let joint :=
    if folded && lines.break? == some '\n' && !lines.blank && !blank then
      if lines.breaks.isEmpty then [' '] else lines.breaks
    else lines.breaks ++ lines.break?.toList
  ⟨line.reverse ++ (joint ++ lines.text), break?, breaks, blank⟩

/-- Reads the lines at an indentation. The first argument bounds their number. -/
def readLines (folded : Bool) (indent : Nat) :
    Nat → Lines → List Cell → Except Fault (Lines × List Cell)
  | 0, lines, cells => .ok (lines, cells)
  | _ + 1, lines, [] => .ok (lines, [])
  | bound + 1, lines, c :: cells =>
    if c.column ≠ indent then .ok (lines, c :: cells)
    else do
      let line := (c :: cells).takeWhile fun c => !c.isBreak
      match (c :: cells).dropWhile fun c => !c.isBreak with
      | [] => .ok (lines.add folded (Cell.chars line) c.isBlank none [], [])
      | d :: rest =>
        let next ← skipIndentation (some indent) [] 0 rest
        readLines folded indent bound
          (lines.add folded (Cell.chars line) c.isBlank (some d.char) next.breaks) next.rest

/-- The text of a scalar, its end treated as the header says. -/
def Lines.finish (lines : Lines) : Chomp → List Char
  | .strip => lines.text
  | .clip => lines.break?.toList ++ lines.text
  | .keep => lines.breaks ++ (lines.break?.toList ++ lines.text)

/-- A block scalar, given what follows its first indicator. Its parent's keys or entries stand one
column before `margin`. -/
def read (folded : Bool) (margin : Nat) (cells : List Cell) :
    Except Fault (String × List Cell) := do
  let (header, rest) ← readIndicators cells
  match skipLine? rest with
  | none => .error .badBlockHeader
  | some rest =>
    let given := header.increment.map (margin - 1 + ·)
    let start ← skipIndentation given [] 0 rest
    let indent := given.getD (max start.width (max margin 1))
    let (lines, rest) ←
      readLines folded indent (rest.length + 1) ⟨[], none, start.breaks, false⟩ start.rest
    .ok (String.ofList (lines.finish header.chomp).reverse, rest)

end TagTemplate.Yaml.Block
