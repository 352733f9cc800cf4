import TagTemplate.File.Error

/-!
# Hosts

What a command needs of the world around it: files that can be read and written as texts, and one
input text.
-/
namespace TagTemplate

structure Host (m : Type → Type) where
  readFile (path : String) : m (Except FileError String)
  writeFile (path text : String) : m (Except FileError Unit)
  readInput : m (Except FileError String)

end TagTemplate
