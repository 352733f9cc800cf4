import TagTemplate.Model
import TagTemplate.Template.Placeholders

/-!
# Rendering

A template is rendered by copying its text and putting the model's value in place of each tag.
Values are not scanned again. The first error from the left is the answer, be it a tag without a
value or a fault of the template, and there is no output beside it.
-/
namespace TagTemplate

variable {M : Type u} [Model M]

/-- What the segments of a template give, one text for each. -/
def fill (model : M) (template : String) :
    List (Except RenderError Segment) → Except RenderError (List String)
  | [] => .ok []
  | .error e :: _ => .error e
  | .ok (.text content) :: rest => (fill model template rest).map (content :: ·)
  | .ok (.tag tag) :: rest =>
    match Model.lookup model tag.name with
    | some value => (fill model template rest).map (value :: ·)
    | none => .error (.unknownTag tag.name (.locate template tag.start))

/-- The template with the model's values in place of its tags. -/
def render (model : M) (template : String) : Except RenderError String :=
  (fill model template (scan template)).map String.join

end TagTemplate
