/-!
# Command line arguments

What a command line asks for. Options may stand before or after the name of a subcommand; if an
option stands on both sides, only what is given after the name counts. Of two things wrong with a
command line the first one is what ends the reading, and so is a request for help or the version.
-/
namespace TagTemplate

inductive Command where
  /-- Renders the template, into a file if one is named. -/
  | render (output : Option String)
  /-- Lists the tag names of the template, and may check that the model has them. -/
  | tags (check : Bool)
  deriving DecidableEq, Repr

structure Sources where
  models : List String
  assignments : List String
  /-- The input, if none is given. -/
  template : Option String
  deriving DecidableEq, Repr

structure Invocation where
  sources : Sources
  command : Command
  deriving DecidableEq, Repr

inductive Stop where
  | help
  | version
  | badUsage
  deriving DecidableEq, Repr

namespace Arguments

inductive Scope where
  | top
  | render
  | tags
  deriving DecidableEq, Repr

inductive Purpose where
  | model
  | set
  | template
  | output
  | check
  | help
  | version
  deriving DecidableEq, Repr

def Purpose.takesValue : Purpose → Bool
  | model => true
  | set => true
  | template => true
  | output => true
  | _ => false

def Purpose.isAllowed : Purpose → Scope → Bool
  | output, scope => scope == .render
  | check, scope => scope == .tags
  | version, scope => scope == .top
  | _, _ => true

def ofLongName? (name : List Char) : Option Purpose :=
  if name = "model".toList then some .model
  else if name = "set".toList then some .set
  else if name = "template".toList then some .template
  else if name = "output".toList then some .output
  else if name = "check".toList then some .check
  else if name = "help".toList then some .help
  else if name = "version".toList then some .version
  else none

def ofShortName? : Char → Option Purpose
  | 'm' => some .model
  | 's' => some .set
  | 't' => some .template
  | 'o' => some .output
  | 'h' => some .help
  | 'V' => some .version
  | _ => none

inductive Argument where
  /-- An option, with what is attached to it as its value. -/
  | option (purpose : Purpose) (attached : Option String)
  /-- What begins like an option but is none. -/
  | unknown
  /-- Two hyphens, after which no option may follow. -/
  | terminator
  | word (text : String)
  deriving DecidableEq, Repr

/-- An option by its long name, with a value after an equals sign. -/
def ofLong (scope : Scope) (text : List Char) : Argument :=
  let attached := match text.dropWhile (· != '=') with
    | [] => none
    | _ :: value => some (String.ofList value)
  match (ofLongName? (text.takeWhile (· != '='))).filter (·.isAllowed scope) with
  | some purpose => .option purpose attached
  | none => .unknown

/-- An option by its short name, which a value may follow at once or after an equals sign. -/
def ofShort (scope : Scope) (name : Char) (text : List Char) : Argument :=
  let attached := match text with
    | [] => none
    | '=' :: value => some (String.ofList value)
    | value => some (String.ofList value)
  match (ofShortName? name).filter (·.isAllowed scope) with
  | some purpose => .option purpose (if purpose.takesValue then attached else none)
  | none => .unknown

def Argument.of (scope : Scope) (text : String) : Argument :=
  match text.toList with
  | ['-', '-'] => .terminator
  | '-' :: '-' :: rest => ofLong scope rest
  | '-' :: name :: rest => ofShort scope name rest
  | _ => .word text

/-- Whether an argument may be the value of the option before it. -/
def isValue (text : String) : Bool :=
  match text.toList with
  | '-' :: _ :: _ => false
  | _ => true

structure Side where
  models : List String
  assignments : List String
  template : Option String
  output : Option String
  check : Bool
  deriving DecidableEq, Repr

namespace Side

def empty : Side := ⟨[], [], none, none, false⟩

/-- Adds the value of an option. Paths are not empty, and only models and assignments may be given
more than once. -/
def addValue (side : Side) (value : String) : Purpose → Except Stop Side
  | .model =>
    if value.isEmpty then .error .badUsage else .ok { side with models := side.models ++ [value] }
  | .set => .ok { side with assignments := side.assignments ++ [value] }
  | .template =>
    if value.isEmpty || side.template.isSome then .error .badUsage
    else .ok { side with template := some value }
  | .output =>
    if value.isEmpty || side.output.isSome then .error .badUsage
    else .ok { side with output := some value }
  | _ => .error .badUsage

def addFlag (side : Side) : Purpose → Except Stop Side
  | .check => if side.check then .error .badUsage else .ok { side with check := true }
  | .help => .error .help
  | .version => .error .version
  | _ => .error .badUsage

/-- The options of both sides, given those after the name of the subcommand. -/
def sources (before after : Side) : Sources where
  models := if after.models.isEmpty then before.models else after.models
  assignments := if after.assignments.isEmpty then before.assignments else after.assignments
  template := after.template.or before.template

end Side

structure Rest where
  side : Side
  words : List String

def readSide (scope : Scope) (side : Side) : List String → Except Stop Rest
  | [] => .ok ⟨side, []⟩
  | text :: rest =>
    match Argument.of scope text with
    | .unknown => .error .badUsage
    | .terminator => if rest.isEmpty then .ok ⟨side, []⟩ else .error .badUsage
    | .word _ => .ok ⟨side, text :: rest⟩
    | .option purpose attached =>
      if purpose.takesValue then
        match attached with
        | some value => do readSide scope (← side.addValue value purpose) rest
        | none =>
          match rest with
          | [] => .error .badUsage
          | value :: rest =>
            if isValue value then do readSide scope (← side.addValue value purpose) rest
            else .error .badUsage
      else if attached.isSome then .error .badUsage
      else do readSide scope (← side.addFlag purpose) rest

/-- Reads the options after the name of a subcommand, where no words are allowed. -/
def readAfter (scope : Scope) (arguments : List String) : Except Stop Side := do
  let rest ← readSide scope .empty arguments
  if rest.words.isEmpty then .ok rest.side else .error .badUsage

def helpFor : List String → Stop
  | [] => .help
  | [name] => if ["render", "tags", "help"].contains name then .help else .badUsage
  | _ => .badUsage

/-- What a command line asks for; rendering, if it names no subcommand. -/
def read (arguments : List String) : Except Stop Invocation := do
  let before ← readSide .top .empty arguments
  match before.words with
  | [] => .ok ⟨before.side.sources .empty, .render none⟩
  | name :: rest =>
    if name = "render" then
      let after ← readAfter .render rest
      .ok ⟨before.side.sources after, .render after.output⟩
    else if name = "tags" then
      let after ← readAfter .tags rest
      .ok ⟨before.side.sources after, .tags after.check⟩
    else if name = "help" then .error (helpFor rest)
    else .error .badUsage

end Arguments
end TagTemplate
