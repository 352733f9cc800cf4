import TagTemplate.File.Host
import TagTemplate.File.Path
import TagTemplate.Table
import TagTemplate.Text.Size

/-!
# A directory in memory

A working directory with files in it, and an input, as a host. A directory inside it is there
because of the files in it. The directories around it and the root are there too, with no other
files than those that are given.
-/
namespace TagTemplate

structure Directory where
  files : Table ByteArray
  input : ByteArray

/-- The names that lead somewhere from the working directory, from the inside out. A way out of it
ends in names of two dots, and a way from the root in an empty name. -/
abbrev Route := List (List Char)

namespace Route

def path (route : Route) : String := String.ofList (List.intercalate ['/'] route.reverse)

/-- The directory around another one; the root is its own. -/
def parent : Route → Route
  | [] => [['.', '.']]
  | ['.', '.'] :: outer => ['.', '.'] :: ['.', '.'] :: outer
  | [] :: outer => [] :: outer
  | _ :: outer => outer

/-- Whether a route leads to the working directory, a directory around it or the root. -/
def isAround (route : Route) : Bool := route.all fun name => name.isEmpty || name == ['.', '.']

end Route

namespace Directory

inductive Place where
  | directory
  | file (contents : ByteArray)
  | nothing

def at? (d : Directory) (route : Route) : Place :=
  if route.isAround then .directory
  else
    match d.files.lookup route.path with
    | some contents => .file contents
    | none =>
      let start := route.path.toList ++ ['/']
      if d.files.toList.any fun (path, _) => start.isPrefixOf path.toList then .directory
      else .nothing

/-- The greatest number of bytes in a name, and in a path. -/
def nameLimit : Nat := 255

def pathLimit : Nat := 4095

/-- Where a name leads from a directory, and what is there. -/
def follow (d : Directory) (here : Route) (name : List Char) : Except FileError (Route × Place) :=
  if name = ['.'] then .ok (here, .directory)
  else if name = ['.', '.'] then .ok (here.parent, .directory)
  else if nameLimit < Text.size name then .error .nameTooLong
  else .ok (name :: here, d.at? (name :: here))

/-- Follows a name that has to lead to a directory. -/
def enter (d : Directory) (here : Route) (name : List Char) : Except FileError Route := do
  match ← d.follow here name with
  | (route, .directory) => .ok route
  | (_, .file _) => .error .notADirectory
  | (_, .nothing) => .error .notFound

/-- The directory that the last name of a path is looked up in, and that name; a path without names
leads to the directory itself. -/
def enterParent (d : Directory) (path : String) : Except FileError (Route × List Char) := do
  if path.toList.any fun c => c.toNat == 0 then .error .nulInPath
  else if path.isEmpty then .error .notFound
  else if pathLimit < Text.size path.toList then .error .nameTooLong
  else
    let start : Route := if path.toList.head? == some '/' then [[]] else []
    let names := Path.components path
    let here ← names.dropLast.foldlM d.enter start
    .ok (here, names.getLast?.getD ['.'])

def endsInSlash (path : String) : Bool := path.toList.getLast? == some '/'

def readBytes (d : Directory) (path : String) : Except FileError ByteArray := do
  let (here, name) ← d.enterParent path
  match ← d.follow here name with
  | (_, .directory) => .error .isADirectory
  | (_, .nothing) => .error .notFound
  | (_, .file contents) => if endsInSlash path then .error .notADirectory else .ok contents

/-- Makes a file, or changes its contents. A path that ends in a slash is refused before its last
name is looked up. -/
def writeBytes (d : Directory) (path : String) (contents : ByteArray) :
    Except FileError Directory := do
  let (here, name) ← d.enterParent path
  if endsInSlash path then .error .isADirectory
  else
    match ← d.follow here name with
    | (_, .directory) => .error .isADirectory
    | (route, _) => .ok { d with files := d.files.insert route.path contents }

def read (d : Directory) (path : String) : Except FileError String :=
  (d.readBytes path).bind decodeText

def write (d : Directory) (path text : String) : Except FileError Directory :=
  d.writeBytes path text.toUTF8

/-- The directory as a host; what is written into it shows when it is read again. -/
def host : Host (StateM Directory) where
  readFile path := return (← get).read path
  writeFile path text := do
    match (← get).write path text with
    | .ok d => set d; return .ok ()
    | .error e => return .error e
  readInput := return decodeText (← get).input

end Directory
end TagTemplate
