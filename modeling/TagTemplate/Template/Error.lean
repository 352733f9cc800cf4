import TagTemplate.Template.Position

/-!
# Template errors

Why a template cannot be scanned or rendered. Each error says where the marker at fault begins.
-/
namespace TagTemplate

inductive RenderError where
  /-- A well-formed tag has no value. -/
  | unknownTag (name : String) (position : Position)
  /-- What stands between the braces, blanks included, is not a tag name. -/
  | malformedTag (raw : String) (position : Position)
  /-- No closing braces follow the opening ones. -/
  | unterminatedPlaceholder (position : Position)
  deriving DecidableEq, Repr

namespace RenderError

def position : RenderError → Position
  | unknownTag _ p => p
  | malformedTag _ p => p
  | unterminatedPlaceholder p => p

def message : RenderError → String
  | unknownTag name p => "unknown tag `" ++ name ++ "` at " ++ p.display
  | malformedTag raw p => "malformed tag `" ++ raw ++ "` at " ++ p.display
  | unterminatedPlaceholder p => "unterminated placeholder at " ++ p.display

end RenderError
end TagTemplate
