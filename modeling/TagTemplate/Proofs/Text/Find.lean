import Mathlib.Data.List.Infix
import TagTemplate.Proofs.Piece.Pair

/-!
# Where a word first stands in a text

`find?` tries every place of a text in turn. Two characters of a kind are found where `cutAtPair`
cuts, and are not found exactly in a text that is free of such pairs.
-/
namespace TagTemplate

def Text.find? (word text : List Char) : Option Nat :=
  text.tails.findIdx? fun rest => word.isPrefixOf rest

namespace Text

open Piece (PairFree pairFree_cons pairFree_nil)

variable {b : Char} {text before after : List Char}

theorem findIdx?_tails_pair_cons {α : Type u} [DecidableEq α] (b c : α) (text : List α) :
    ((c :: text).tails.findIdx? fun rest => [b, b].isPrefixOf rest) =
      if c = b ∧ text.head? = some b then some 0
      else (text.tails.findIdx? fun rest => [b, b].isPrefixOf rest).map (· + 1) := by
  have hiff : [b, b].isPrefixOf (c :: text) = true ↔ c = b ∧ text.head? = some b := by
    rw [List.isPrefixOf_iff_prefix]
    cases text with
    | nil => simp
    | cons d text =>
      simp only [List.cons_prefix_cons, List.nil_prefix, and_true, List.head?_cons,
        Option.some.injEq]
      exact ⟨fun h => ⟨h.1.symm, h.2.symm⟩, fun h => ⟨h.1.symm, h.2.symm⟩⟩
  rw [List.tails_cons, List.findIdx?_cons]
  simp only [hiff]

theorem find?_pair_cons (b c : Char) (text : List Char) :
    find? [b, b] (c :: text) =
      if c = b ∧ text.head? = some b then some 0 else (find? [b, b] text).map (· + 1) :=
  findIdx?_tails_pair_cons b c text

theorem find?_pair_eq_none_iff : find? [b, b] text = none ↔ PairFree b text := by
  induction text with
  | nil => simp [find?]
  | cons c text ih =>
    rw [find?_pair_cons, pairFree_cons, ← ih]
    split_ifs with h
    · simp [h]
    · simp [h]

theorem find?_append_pair (h : PairFree b (before ++ [b])) :
    find? [b, b] (before ++ b :: b :: after) = some before.length := by
  induction before with
  | nil => simp [find?_pair_cons]
  | cons c before ih =>
    rw [List.cons_append, pairFree_cons] at h
    have hhead : (before ++ b :: b :: after).head? = (before ++ [b]).head? := by
      cases before with
      | nil => rfl
      | cons d before => rfl
    rw [List.cons_append, find?_pair_cons, hhead, if_neg h.1, ih h.2]
    rfl

end Text
end TagTemplate
