import TagTemplate.Proofs.Text.Bytes

/-!
# Changing a text at byte offsets

Changes of a text stand one after the other between byte offsets. Making them keeps the slices
before, between and after them. Where a text is given as parts in a row, some of which are to be
replaced, making the changes at these parts gives the parts with their replacements.
-/
namespace TagTemplate.Text

/-- What is put in place of the part of a text between two byte offsets. -/
structure Change where
  start : Nat
  stop : Nat
  text : String
  deriving DecidableEq, Repr

def InOrder (changes : List Change) : Prop := changes.Pairwise fun a b => a.stop ≤ b.start

/-- A text from a byte offset on with some changes made, unless one of them parts a character or
overlaps what is before it. -/
def splice? (source : List Char) (offset : Nat) : List Change → Option (List Char)
  | [] => sliceFrom? offset source
  | change :: changes => do
    let kept ← slice? offset change.start source
    let rest ← splice? source change.stop changes
    return kept ++ change.text.toList ++ rest

structure Part where
  text : List Char
  /-- What is put in its place; without it the part is kept. -/
  replacement : Option String

namespace Part

def result (part : Part) : List Char :=
  match part.replacement with
  | none => part.text
  | some text => text.toList

def changes (offset : Nat) : List Part → List Change
  | [] => []
  | ⟨text, none⟩ :: parts => changes (offset + size text) parts
  | ⟨text, some replacement⟩ :: parts =>
    ⟨offset, offset + size text, replacement⟩ :: changes (offset + size text) parts

@[simp] theorem result_none (text : List Char) : result ⟨text, none⟩ = text := rfl

@[simp] theorem result_some (text : List Char) (replacement : String) :
    result ⟨text, some replacement⟩ = replacement.toList := rfl

variable {source before kept : List Char}

theorem splice?_changes_of_kept (parts : List Part)
    (h : source = before ++ kept ++ parts.flatMap Part.text) :
    splice? source (size before) (changes (size (before ++ kept)) parts) =
      some (kept ++ parts.flatMap result) := by
  -- What is kept since the last change grows until the next one comes.
  induction parts generalizing before kept with
  | nil => rw [h, changes, splice?, List.append_assoc, sliceFrom?_append]; rfl
  | cons part parts ih =>
    obtain ⟨text, replacement⟩ := part
    rw [List.flatMap_cons] at h ⊢
    cases replacement with
    | none =>
      have hrest := @ih before (kept ++ text) (by simp [h])
      rw [← List.append_assoc before, size_append _ text] at hrest
      rw [changes, hrest, List.append_assoc]
      rfl
    | some replacement =>
      have hkept : slice? (size before) (size (before ++ kept)) source = some kept := by
        rw [h, List.append_assoc, size_append, ← List.append_assoc, slice?_append]
      have hrest := @ih (before ++ kept ++ text) [] (by simp [h])
      rw [List.append_nil, size_append _ text] at hrest
      simp only [changes, splice?, hkept, hrest, Option.bind_eq_bind, Option.bind_some]
      simp

/-- Making the changes at its parts replaces these parts of a text and nothing else. -/
theorem splice?_changes (parts : List Part) :
    splice? (parts.flatMap Part.text) 0 (changes 0 parts) = some (parts.flatMap result) :=
  @splice?_changes_of_kept _ [] [] parts rfl

end Part
end TagTemplate.Text
