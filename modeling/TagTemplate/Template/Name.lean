/-!
# Tag names

A tag name is an ASCII letter followed by ASCII letters and digits.
-/
namespace TagTemplate

def isTagName : List Char → Bool
  | [] => false
  | c :: rest => c.isAlpha && rest.all Char.isAlphanum

end TagTemplate
