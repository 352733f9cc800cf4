import TagTemplate.Command.Run

/-!
# The program

The commands on the files, the input and the output of the process.
-/
namespace TagTemplate

/-- An error number, which may come with its sign turned. -/
def errorNumber (code : UInt32) : Nat :=
  if code.toNat < Nat.pow 2 31 then code.toNat else Nat.pow 2 32 - code.toNat

/-- The number and the words of an error of the operating system. -/
def osError? : IO.Error → Option (Nat × String)
  | .alreadyExists _ code text => some (errorNumber code, text)
  | .otherError code text => some (errorNumber code, text)
  | .resourceBusy code text => some (errorNumber code, text)
  | .resourceVanished code text => some (errorNumber code, text)
  | .unsupportedOperation code text => some (errorNumber code, text)
  | .hardwareFault code text => some (errorNumber code, text)
  | .unsatisfiedConstraints code text => some (errorNumber code, text)
  | .illegalOperation code text => some (errorNumber code, text)
  | .protocolError code text => some (errorNumber code, text)
  | .timeExpired code text => some (errorNumber code, text)
  | .interrupted _ code text => some (errorNumber code, text)
  | .noFileOrDirectory _ code text => some (errorNumber code, text)
  | .invalidArgument _ code text => some (errorNumber code, text)
  | .permissionDenied _ code text => some (errorNumber code, text)
  | .resourceExhausted _ code text => some (errorNumber code, text)
  | .inappropriateType _ code text => some (errorNumber code, text)
  | .noSuchThing _ code text => some (errorNumber code, text)
  | .unexpectedEof => none
  | .userError _ => none

def FileError.ofIO (e : IO.Error) : FileError :=
  match osError? e with
  | some (2, _) => .notFound
  | some (20, _) => .notADirectory
  | some (21, _) => .isADirectory
  | some (36, _) => .nameTooLong
  | some (code, text) => .other (text ++ " (os error " ++ toString code ++ ")")
  | none => .other (toString e)

def attempt {α : Type} (action : IO α) : IO (Except FileError α) := do
  match ← action.toBaseIO with
  | .ok result => return .ok result
  | .error e => return .error (.ofIO e)

def processHost : Host IO where
  readFile path := return (← attempt (IO.FS.readBinFile path)).bind decodeText
  writeFile path text := attempt (IO.FS.writeFile path text)
  readInput := do
    let stdin ← IO.getStdin
    return (← attempt stdin.readBinToEnd).bind decodeText

end TagTemplate

def main (arguments : List String) : IO UInt32 := do
  let outcome ← TagTemplate.runArguments TagTemplate.processHost arguments
  IO.print outcome.output
  IO.eprint outcome.errors
  return UInt32.ofNat outcome.exitCode
