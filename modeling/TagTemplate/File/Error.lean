/-!
# File errors

Why a file cannot be read or written, in the words of the operating system.
-/
namespace TagTemplate

inductive FileError where
  | notFound
  | notADirectory
  | isADirectory
  | nameTooLong
  /-- The contents are not a text in UTF-8. -/
  | notUtf8
  /-- A path holds a character of code zero. -/
  | nulInPath
  /-- Anything else that the operating system says. -/
  | other (text : String)
  deriving DecidableEq, Repr

def FileError.message : FileError → String
  | notFound => "No such file or directory (os error 2)"
  | notADirectory => "Not a directory (os error 20)"
  | isADirectory => "Is a directory (os error 21)"
  | nameTooLong => "File name too long (os error 36)"
  | notUtf8 => "stream did not contain valid UTF-8"
  | nulInPath => "file name contained an unexpected NUL byte"
  | other text => text

def decodeText (bytes : ByteArray) : Except FileError String :=
  match String.fromUTF8? bytes with
  | some text => .ok text
  | none => .error .notUtf8

end TagTemplate
