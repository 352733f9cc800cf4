/-!
# Tokens of YAML

The tokens that a document is made of. Indentation shows as tokens that open and close block
collections, and each key of a mapping has a token before it, whether a question mark introduces it
or only the colon after it tells.
-/
namespace TagTemplate.Yaml

/-- The bytes of a tag; escapes in a tag may make any sequence of bytes. -/
abbrev TagName := List UInt8

inductive Token where
  | version (major minor : Nat)
  | tagHandle (handle : List Char) (start : TagName)
  | documentStart
  | documentEnd
  | blockSequenceStart
  | blockMappingStart
  | blockEnd
  | flowSequenceStart
  | flowSequenceEnd
  | flowMappingStart
  | flowMappingEnd
  | blockEntry
  | flowEntry
  | key
  | value
  | anchor (name : List Char)
  | alias (name : List Char)
  | tag (handle : List Char) (suffix : TagName)
  | scalar (plain : Bool) (text : String)
  deriving DecidableEq, Repr

end TagTemplate.Yaml
