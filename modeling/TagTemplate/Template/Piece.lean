import TagTemplate.Template.Name
import TagTemplate.Text.Blank

/-!
# Pieces of a template

A template is cut into pieces that keep every character of it: literal text, escapes and tags.
Two opening braces that no third one follows open a tag, which the first two closing braces after
them end. Three or more opening braces in a row are an escape. All else is literal.

The characters that `Piece.read` takes from a text are those that `Piece.print` writes.
-/
namespace TagTemplate

inductive Piece where
  | literal (text : List Char)
  /-- A whole run of opening braces, at least three. -/
  | escape (length : Nat)
  /-- A tag name between the blanks around it. -/
  | tag (left name right : List Char)
  deriving DecidableEq, Repr

namespace Piece

/-- The characters of the template that the piece stands for. -/
def print : Piece → List Char
  | literal text => text
  | escape length => List.replicate length '{'
  | tag left name right => '{' :: '{' :: (left ++ name ++ right ++ ['}', '}'])

inductive Fault where
  | unterminated
  | malformed (interior : List Char)
  deriving DecidableEq, Repr

/-- The texts before and after the first place where a character stands twice in a row. -/
def cutAtPair (b : Char) : List Char → Option (List Char × List Char)
  | c :: d :: text =>
    if c = b ∧ d = b then some ([], text)
    else (cutAtPair b (d :: text)).map fun (before, after) => (c :: before, after)
  | _ => none

/-- The piece that two opening braces begin, given the text after them. -/
def readMarker (text : List Char) : Except Fault (Piece × List Char) :=
  match text.takeWhile (· == '{') with
  | [] =>
    match cutAtPair '}' text with
    | none => .error .unterminated
    | some (interior, rest) =>
      if isTagName (Text.trim interior) then
        .ok (tag (Text.leadingBlanks interior) (Text.trim interior) (Text.trailingBlanks interior),
          rest)
      else .error (.malformed interior)
  | more => .ok (escape (more.length + 2), text.dropWhile (· == '{'))

/-- The first piece of a text that is not empty, and the text after it. -/
def read (text : List Char) : Except Fault (Piece × List Char) :=
  match cutAtPair '{' text with
  | none => .ok (literal text, [])
  | some ([], after) => readMarker after
  | some (before, after) => .ok (literal before, '{' :: '{' :: after)

theorem eq_of_cutAtPair {b : Char} {text before after : List Char}
    (h : cutAtPair b text = some (before, after)) : text = before ++ b :: b :: after := by
  induction text generalizing before with
  | nil => simp [cutAtPair] at h
  | cons c text ih =>
    cases text with
    | nil => simp [cutAtPair] at h
    | cons d text =>
      rw [cutAtPair] at h
      split at h
      · rename_i hb
        obtain ⟨rfl, rfl⟩ := hb
        simp only [Option.some.injEq, Prod.mk.injEq] at h
        obtain ⟨rfl, rfl⟩ := h
        rfl
      · obtain ⟨⟨x, y⟩, hx, hy⟩ := Option.map_eq_some_iff.1 h
        simp only [Prod.mk.injEq] at hy
        obtain ⟨rfl, rfl⟩ := hy
        rw [ih hx, List.cons_append]

theorem length_lt_of_readMarker {text rest : List Char} {piece : Piece}
    (h : readMarker text = .ok (piece, rest)) : rest.length ≤ text.length := by
  rw [readMarker] at h
  split at h
  · split at h
    · simp at h
    · rename_i interior after hcut
      split at h
      · simp only [Except.ok.injEq, Prod.mk.injEq] at h
        obtain ⟨rfl, rfl⟩ := h
        rw [eq_of_cutAtPair hcut]
        simp only [List.length_append, List.length_cons]
        omega
      · simp at h
  · simp only [Except.ok.injEq, Prod.mk.injEq] at h
    obtain ⟨rfl, rfl⟩ := h
    exact (List.dropWhile_suffix _).length_le

/-- A piece of a text that is not empty takes at least one character. -/
theorem length_lt_of_read {text rest : List Char} {piece : Piece} (hne : text ≠ [])
    (h : read text = .ok (piece, rest)) : rest.length < text.length := by
  rw [read] at h
  split at h
  · simp only [Except.ok.injEq, Prod.mk.injEq] at h
    obtain ⟨rfl, rfl⟩ := h
    exact List.length_pos_iff.2 hne
  · rename_i after hcut
    have := length_lt_of_readMarker h
    rw [eq_of_cutAtPair hcut]
    simp only [List.nil_append, List.length_cons]
    omega
  · rename_i before after hb hcut
    simp only [Except.ok.injEq, Prod.mk.injEq] at h
    obtain ⟨rfl, rfl⟩ := h
    rw [eq_of_cutAtPair hcut, List.length_append]
    have : 0 < before.length := by
      cases before with
      | nil => exact absurd rfl hb
      | cons c before => exact Nat.succ_pos _
    omega

end Piece
end TagTemplate
