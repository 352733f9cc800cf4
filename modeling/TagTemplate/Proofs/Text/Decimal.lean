import Mathlib.Data.List.Basic
import Mathlib.Tactic.IntervalCases
import TagTemplate.Text.Digits

/-!
# Decimal numerals

The digits of a number: there is one at least, and the first of several is not zero. They are worth
the number of which they are the digits.
-/
namespace TagTemplate.Text

variable {n : Nat} {text : List Char}

theorem isDigit_of_mem_toDigits {c : Char} (h : c ∈ Nat.toDigits 10 n) : c.isDigit = true :=
  Nat.isDigit_of_mem_toDigits (by omega) (by omega) h

theorem digitValue_lt_ten {c : Char} (h : c.isDigit = true) : c.toNat - '0'.toNat < 10 := by
  simp only [Char.isDigit, Bool.and_eq_true, decide_eq_true_eq, ge_iff_le,
    UInt32.le_iff_toNat_le] at h
  change 48 ≤ c.toNat ∧ c.toNat ≤ 57 at h
  change c.toNat - 48 < 10
  omega

theorem toDigits_ne_cons {c : Char} (hc : c.isDigit = false) (n : Nat) (more : List Char) :
    Nat.toDigits 10 n ≠ c :: more := by
  intro h
  have hdigit : c.isDigit = true := isDigit_of_mem_toDigits (h ▸ List.mem_cons_self)
  exact absurd hdigit (by simp [hc])

theorem toDigits_injective {m n : Nat} (h : Nat.toDigits 10 m = Nat.toDigits 10 n) : m = n := by
  rw [← Nat.ofDigitChars_ten_toDigits (n := m), h, Nat.ofDigitChars_ten_toDigits]

theorem exists_toDigits_eq_cons (n : Nat) :
    ∃ c digits, Nat.toDigits 10 n = c :: digits ∧ c.isDigit = true := by
  obtain ⟨c, digits, h⟩ := List.exists_cons_of_ne_nil (Nat.toDigits_ne_nil (n := n) (b := 10))
  exact ⟨c, digits, h, isDigit_of_mem_toDigits (h ▸ List.mem_cons_self)⟩

theorem head?_toDigits_ne (hn : n ≠ 0) : (Nat.toDigits 10 n).head? ≠ some '0' := by
  induction n using Nat.strong_induction_on with
  | _ n ih =>
    rw [Nat.toDigits_eq_if (by omega)]
    split_ifs with hsmall
    · interval_cases n <;> first | exact absurd rfl hn | decide
    · rw [List.head?_append_of_ne_nil _ Nat.toDigits_ne_nil]
      exact ih (n / 10) (by omega) (by omega)

theorem toDigits_ne_zero_cons (n : Nat) (c : Char) (more : List Char) :
    Nat.toDigits 10 n ≠ '0' :: c :: more := by
  intro h
  by_cases hn : n = 0
  · rw [hn, Nat.toDigits_zero] at h
    cases h
  · exact head?_toDigits_ne hn (h ▸ rfl)

inductive IsDecimal : List Char → Int → Prop where
  | unsigned (n : Nat) : IsDecimal (Nat.toDigits 10 n) n
  | plus (n : Nat) : IsDecimal ('+' :: Nat.toDigits 10 n) n
  | minus (n : Nat) : IsDecimal ('-' :: Nat.toDigits 10 n) (-n)

theorem toList_toString_natCast (n : Nat) : (toString (n : Int)).toList = Nat.toDigits 10 n :=
  Nat.toList_repr

theorem toList_toString_of_neg {n : Int} (h : n < 0) :
    (toString n).toList = '-' :: Nat.toDigits 10 n.natAbs := by
  obtain ⟨m, rfl⟩ := Int.eq_negSucc_of_lt_zero h
  have htext : toString (Int.negSucc m) = "-" ++ (m + 1).repr := rfl
  rw [htext, String.toList_append, Nat.toList_repr]
  rfl

theorem isDecimal_toString (n : Int) : IsDecimal (toString n).toList n := by
  by_cases h : n < 0
  · rw [toList_toString_of_neg h]
    have hn : n = -(n.natAbs : Int) := by omega
    rw [hn, Int.natAbs_neg, Int.natAbs_natCast]
    exact .minus _
  · obtain ⟨m, rfl⟩ := Int.eq_ofNat_of_zero_le (Int.not_lt.1 h)
    rw [toList_toString_natCast]
    exact .unsigned m

end TagTemplate.Text
