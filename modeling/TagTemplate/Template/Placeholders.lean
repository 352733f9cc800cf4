import TagTemplate.Template.Scanner

/-!
# The tags of a template

Every tag of a template in order of appearance, and their distinct names. No model is asked: only
an error of scanning is reported.
-/
namespace TagTemplate

/-- The tags among what a scanner has handed out, or the first error. -/
def collectTags : List (Except RenderError Segment) → Except RenderError (List Tag)
  | [] => .ok []
  | .error e :: _ => .error e
  | .ok (.text _) :: rest => collectTags rest
  | .ok (.tag tag) :: rest => (collectTags rest).map (tag :: ·)

def placeholders (template : String) : Except RenderError (List Tag) :=
  collectTags (scan template)

/-- The distinct tag names of a template in order of first appearance. -/
def tagNames (template : String) : Except RenderError (List String) :=
  (placeholders template).map fun tags => (tags.map Tag.name).eraseDups

end TagTemplate
