import TagTemplate.Number.Text

/-!
# Decoded documents

What a model file may hold, whichever format it is written in. A document is a mapping; its entries
are kept as written, duplicates included.
-/
namespace TagTemplate

/-- Doubles that are no numbers. -/
inductive NonFinite where
  | nan
  | infinity (negative : Bool)
  deriving DecidableEq, Repr

inductive Value where
  | null
  | bool (value : Bool)
  | number (value : Number)
  | nonFinite (value : NonFinite)
  | string (value : String)
  | sequence (items : List Value)
  | mapping (entries : List (String × Value))

/-- The entries of a document's mapping in the order in which they are written. -/
abbrev Document := List (String × Value)

end TagTemplate
