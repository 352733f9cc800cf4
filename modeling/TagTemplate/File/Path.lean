/-!
# Paths

The components of a path, and the extension of the file it names.
-/
namespace TagTemplate.Path

/-- The names between slashes; there are none between two slashes in a row. -/
def components (path : String) : List (List Char) :=
  (path.toList.splitOn '/').filter fun name => !name.isEmpty

/-- The last name of a path, unless it leads to the parent of a directory. A dot names the directory
it stands in and is passed over. -/
def fileName? (path : String) : Option (List Char) :=
  match ((components path).filter (· != ['.'])).getLast? with
  | some ['.', '.'] => none
  | name => name

/-- What follows the last dot of a name; a dot at the start begins no extension. -/
def extensionOfName? (name : List Char) : Option (List Char) :=
  let reversed := name.reverse
  match reversed.dropWhile (· != '.') with
  | [] => none
  | [_] => none
  | _ :: _ :: _ => some (reversed.takeWhile (· != '.')).reverse

def extension? (path : String) : Option (List Char) := (fileName? path).bind extensionOfName?

end TagTemplate.Path
