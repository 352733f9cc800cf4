import Mathlib.Data.List.Infix
import TagTemplate.Template.Piece

/-!
# The first pair of a character

Markers are bounded by characters that stand twice in a row. A text without such a pair is told by
its infixes alone, and `cutAtPair` cuts a text at the first pair: what it leaves before the pair
would be free of pairs even with one more of the character at its end.
-/
namespace TagTemplate.Piece

def PairFree (b : Char) (text : List Char) : Prop := ¬[b, b] <:+: text

instance (b : Char) (text : List Char) : Decidable (PairFree b text) :=
  inferInstanceAs (Decidable (¬_))

variable {b : Char} {text before after : List Char}

@[simp] theorem pairFree_nil : PairFree b [] := by simp [PairFree]

theorem pairFree_cons {c : Char} :
    PairFree b (c :: text) ↔ ¬(c = b ∧ text.head? = some b) ∧ PairFree b text := by
  rw [PairFree, PairFree, List.infix_cons_iff, not_or]
  apply and_congr_left
  intro _
  cases text with
  | nil => simp
  | cons d text =>
    simp only [List.cons_prefix_cons, List.nil_prefix, and_true, List.head?_cons, Option.some.injEq]
    exact not_congr ⟨fun h => ⟨h.1.symm, h.2.symm⟩, fun h => ⟨h.1.symm, h.2.symm⟩⟩

theorem pairFree_append {rest : List Char} :
    PairFree b (text ++ rest) ↔
      PairFree b text ∧ PairFree b rest ∧ ¬(text.getLast? = some b ∧ rest.head? = some b) := by
  induction text with
  | nil => simp
  | cons c text ih =>
    rw [List.cons_append, pairFree_cons, pairFree_cons, ih]
    cases text with
    | nil =>
      simp only [List.nil_append, List.head?_nil, List.getLast?_nil, List.getLast?_singleton,
        Option.some.injEq, pairFree_nil, reduceCtorEq, false_and, and_true, and_false,
        not_false_eq_true, true_and]
      exact and_comm
    | cons d text =>
      simp only [List.cons_append, List.head?_cons, List.getLast?_cons_cons]
      tauto

theorem getLast?_append_of_ne_nil {rest : List Char} (h : rest ≠ []) :
    (text ++ rest).getLast? = rest.getLast? := by
  rw [List.getLast?_append, List.getLast?_eq_some_getLast h, Option.some_or]

theorem pairFree_of_notMem (h : b ∉ text) : PairFree b text := fun hp =>
  h (hp.subset List.mem_cons_self)

theorem cutAtPair_cons (b c : Char) (text : List Char) :
    cutAtPair b (c :: text) =
      if c = b ∧ text.head? = some b then some ([], text.tail)
      else (cutAtPair b text).map fun (before, after) => (c :: before, after) := by
  cases text with
  | nil => simp [cutAtPair]
  | cons d text => simp [cutAtPair]

theorem cutAtPair_eq_none_iff : cutAtPair b text = none ↔ PairFree b text := by
  induction text with
  | nil => simp [cutAtPair]
  | cons c text ih =>
    rw [cutAtPair_cons, pairFree_cons, ← ih]
    split_ifs with h
    · simp [h]
    · simp [h]

theorem cutAtPair_append_pair (h : PairFree b (before ++ [b])) :
    cutAtPair b (before ++ b :: b :: after) = some (before, after) := by
  induction before with
  | nil => simp [cutAtPair]
  | cons c before ih =>
    rw [List.cons_append, pairFree_cons] at h
    have hhead : (before ++ b :: b :: after).head? = (before ++ [b]).head? := by
      cases before with
      | nil => rfl
      | cons d before => rfl
    rw [List.cons_append, cutAtPair_cons, hhead, if_neg h.1, ih h.2]
    rfl

theorem pairFree_of_cutAtPair (h : cutAtPair b text = some (before, after)) :
    PairFree b (before ++ [b]) := by
  induction text generalizing before with
  | nil => simp [cutAtPair] at h
  | cons c text ih =>
    rw [cutAtPair_cons] at h
    split_ifs at h with hc
    · simp only [Option.some.injEq, Prod.mk.injEq] at h
      obtain ⟨rfl, -⟩ := h
      simp [pairFree_cons]
    · obtain ⟨⟨x, y⟩, hx, hy⟩ := Option.map_eq_some_iff.1 h
      simp only [Prod.mk.injEq] at hy
      obtain ⟨rfl, rfl⟩ := hy
      have hhead : (x ++ [b]).head? = text.head? := by
        rw [eq_of_cutAtPair hx]
        cases x with
        | nil => rfl
        | cons d x => rfl
      rw [List.cons_append, pairFree_cons, hhead]
      exact ⟨hc, ih hx⟩

/-- The cut is at the first pair, and at no other place. -/
theorem cutAtPair_eq_some_iff :
    cutAtPair b text = some (before, after) ↔
      text = before ++ b :: b :: after ∧ PairFree b (before ++ [b]) := by
  constructor
  · intro h
    exact ⟨eq_of_cutAtPair h, pairFree_of_cutAtPair h⟩
  · rintro ⟨rfl, h⟩
    exact cutAtPair_append_pair h

end TagTemplate.Piece
