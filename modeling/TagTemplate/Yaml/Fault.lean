/-!
# Faults of YAML documents

Why a text is not a YAML document that can be a model.
-/
namespace TagTemplate.Yaml

inductive Fault where
  /-- A character that may not occur in a document. -/
  | forbiddenCharacter
  /-- A character that can begin nothing where it stands. -/
  | unexpectedCharacter
  | badDirective
  | badAnchor
  | badTag
  | badEscape
  | badBlockHeader
  /-- A quote or a flow collection is not closed. -/
  | unfinished
  /-- A tab where only spaces may indent. -/
  | tabInIndentation
  /-- A text at the indentation of keys that no colon follows. -/
  | missingColon
  /-- A key, a value or an entry where none may begin. -/
  | misplacedIndicator
  | unexpectedToken
  | unknownAnchor
  | tooManyAliases
  | tooDeep
  | moreThanOneDocument
  | notAMapping
  /-- A key that is no text. -/
  | unsuitableKey
  | unsupportedTag
  /-- A text that is not of the type its tag names. -/
  | wrongType
  /-- An integer of more than 64 bits. -/
  | integerOutOfRange
  deriving DecidableEq, Repr

/-- In words of this library's own, which are not those of other YAML parsers. -/
def Fault.message : Fault → String
  | forbiddenCharacter => "the document holds a character that is not allowed"
  | unexpectedCharacter => "a character cannot begin a token"
  | badDirective => "a directive is not well-formed"
  | badAnchor => "an anchor or alias has no proper name"
  | badTag => "a tag is not well-formed"
  | badEscape => "an escape is unknown or not well-formed"
  | badBlockHeader => "the header of a block scalar is not well-formed"
  | unfinished => "a quote or a collection is not closed"
  | tabInIndentation => "a tab is used as indentation"
  | missingColon => "a key is not followed by a colon"
  | misplacedIndicator => "an indicator is not allowed here"
  | unexpectedToken => "something else is expected here"
  | unknownAnchor => "an alias names no anchor"
  | tooManyAliases => "aliases are expanded too often"
  | tooDeep => "collections are nested too deep"
  | moreThanOneDocument => "there is more than one document"
  | notAMapping => "the document is not a mapping"
  | unsuitableKey => "a key is not a text"
  | unsupportedTag => "a tag is not supported"
  | wrongType => "a value is not of the type of its tag"
  | integerOutOfRange => "an integer has more than 64 bits"

end TagTemplate.Yaml
