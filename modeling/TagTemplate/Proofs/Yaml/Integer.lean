import Mathlib.Data.List.TakeWhile
import TagTemplate.Proofs.Number.Rounding
import TagTemplate.Proofs.Text.Decimal
import TagTemplate.Yaml.Resolve

/-!
# Integers in YAML

What becomes of plain decimal integers. Those of 64 bits keep their value, and those of 128 bits are
faults. A greater one is a double that is known to be inexact, or a text if it is beyond all
doubles.
-/
namespace TagTemplate

namespace Text

variable {text : List Char}

theorem digit?_ten {c : Char} (h : c.isDigit = true) :
    digit? 10 c = some (c.toNat - '0'.toNat) := by
  rw [digit?, hexDigit?, if_pos h, Option.filter_some,
    if_pos (decide_eq_true (digitValue_lt_ten h))]

theorem foldlM_digits (h : ∀ c ∈ text, c.isDigit = true) (acc : Nat) :
    text.foldlM (fun n c => (digit? 10 c).map (n * 10 + ·)) acc =
      some (Nat.ofDigitChars 10 text acc) := by
  induction text generalizing acc with
  | nil => rfl
  | cons c text ih =>
    rw [List.foldlM_cons, digit?_ten (h c List.mem_cons_self), Nat.ofDigitChars_cons, Nat.mul_comm]
    exact ih (fun d hd => h d (List.mem_cons_of_mem _ hd)) _

theorem natOfDigits?_toDigits (n : Nat) : natOfDigits? 10 (Nat.toDigits 10 n) = some n := by
  rw [natOfDigits?, if_neg (by simp [Nat.toDigits_ne_nil]),
    foldlM_digits (fun c hc => isDigit_of_mem_toDigits hc), Nat.ofDigitChars_ten_toDigits]

end Text

namespace Yaml

theorem hasLeadingZero_toDigits (n : Nat) : hasLeadingZero (Nat.toDigits 10 n) = false := by
  unfold hasLeadingZero
  split
  · exact absurd ‹_› (Text.toDigits_ne_zero_cons n _ _)
  · rfl

theorem based?_toDigits (n : Nat) : based? (Nat.toDigits 10 n) = none := by
  unfold based?
  split
  · exact absurd ‹_› (Text.toDigits_ne_zero_cons n _ _)
  · exact absurd ‹_› (Text.toDigits_ne_zero_cons n _ _)
  · exact absurd ‹_› (Text.toDigits_ne_zero_cons n _ _)
  · rfl

theorem decimal?_toDigits (n : Nat) : decimal? (Nat.toDigits 10 n) = some n := by
  rw [decimal?, hasLeadingZero_toDigits, Text.natOfDigits?_toDigits]
  rfl

section Decimal

open Text (IsDecimal)

variable {text : String} {letters : List Char} {n : Int} {value : Value}

theorem integer?_of_isDecimal (h : IsDecimal letters n) : integer? letters = some n := by
  cases h with
  | unsigned m =>
    unfold integer?
    split
    · exact absurd ‹_› (Text.toDigits_ne_cons rfl m _)
    · exact absurd ‹_› (Text.toDigits_ne_cons rfl m _)
    · rw [based?_toDigits, decimal?_toDigits]
      rfl
  | plus m =>
    rw [integer?, based?_toDigits, decimal?_toDigits]
    rfl
  | minus m =>
    rw [integer?, based?_toDigits, decimal?_toDigits]
    rfl

theorem unsigned_of_isDecimal (h : IsDecimal letters n) :
    unsigned letters = Nat.toDigits 10 n.natAbs := by
  cases h with
  | unsigned m =>
    obtain ⟨d, digits, hdigits, hd⟩ := Text.exists_toDigits_eq_cons m
    have hsign : isSign d = false := by
      by_contra hsign
      rw [Bool.not_eq_false, isSign, Bool.or_eq_true, beq_iff_eq, beq_iff_eq] at hsign
      rcases hsign with rfl | rfl
      · exact absurd hd (by decide)
      · exact absurd hd (by decide)
    rw [Int.natAbs_natCast, hdigits, unsigned, hsign]
    rfl
  | plus m => rfl
  | minus m =>
    rw [Int.natAbs_neg]
    rfl

def beginsWithoutDigit (word : String) : Bool :=
  (unsigned word.toList).head?.all fun c => !c.isDigit

theorem contains_eq_false {words : List String} (h : IsDecimal text.toList n)
    (hwords : ∀ word ∈ words, beginsWithoutDigit word = true) : words.contains text = false := by
  by_contra hmem
  rw [Bool.not_eq_false, List.contains_iff_mem] at hmem
  obtain ⟨d, digits, hdigits, hd⟩ := Text.exists_toDigits_eq_cons n.natAbs
  have hword := hwords text hmem
  rw [beginsWithoutDigit, unsigned_of_isDecimal h, hdigits] at hword
  exact absurd hd (by simpa using hword)

theorem finite?_toDigits (negative : Bool) (m : Nat) :
    finite? negative (Nat.toDigits 10 m) = Binary64.ofDecimal negative m 0 := by
  have htake : (Nat.toDigits 10 m).takeWhile Char.isDigit = Nat.toDigits 10 m :=
    List.takeWhile_eq_self_iff.2 fun c hc => Text.isDigit_of_mem_toDigits hc
  have hdrop : (Nat.toDigits 10 m).dropWhile Char.isDigit = [] :=
    List.dropWhile_eq_nil_iff.2 fun c hc => Text.isDigit_of_mem_toDigits hc
  unfold finite?
  dsimp only
  rw [htake, hdrop]
  dsimp only
  rw [List.append_nil, Text.natOfDigits?_toDigits]
  rfl

theorem exists_floating?_eq (h : IsDecimal text.toList n) :
    ∃ negative, floating? text =
      (Binary64.ofDecimal negative n.natAbs 0).map Floating.finite := by
  unfold floating?
  rw [if_neg (by rw [contains_eq_false h (by decide +kernel)]; decide),
    if_neg (by rw [contains_eq_false h (by decide +kernel)]; decide),
    if_neg (by rw [contains_eq_false h (by decide +kernel)]; decide)]
  generalize text.toList = letters at h
  cases h with
  | unsigned m =>
    refine ⟨false, ?_⟩
    split
    · exact absurd ‹_› (Text.toDigits_ne_cons rfl m _)
    · exact absurd ‹_› (Text.toDigits_ne_cons rfl m _)
    · rw [finite?_toDigits, Int.natAbs_natCast]
  | plus m => exact ⟨false, congrArg (Option.map _) (finite?_toDigits false m)⟩
  | minus m =>
    rw [Int.natAbs_neg]
    exact ⟨true, congrArg (Option.map _) (finite?_toDigits true m)⟩

theorem ofNat_of_ofDecimal {negative : Bool} {m : Nat} {x : Binary64} (hm : m ≠ 0)
    (h : Binary64.ofDecimal negative m 0 = some x) : Binary64.ofNat negative m = some x := by
  rw [Binary64.ofDecimal, if_neg hm] at h
  dsimp only at h
  rw [Int.toNat_zero, Nat.pow_eq, pow_zero, mul_one, if_pos le_rfl] at h
  split_ifs at h
  · omega
  · exact h

/-- A decimal integer that is resolved is a word of its value, itself, or known to be inexact. -/
theorem resolve_of_isDecimal (h : IsDecimal text.toList n) (hvalue : resolve text = .ok value) :
    value = .number (.integer n) ∨ value = .string text ∨
      ∃ x, value = .number (.double x) ∧ (Number.double x).isExact = false := by
  have hempty : (text.isEmpty || isNullWord text) = false := by
    rw [isNullWord, contains_eq_false h (by decide +kernel), Bool.or_false]
    by_contra hempty
    rw [Bool.not_eq_false, String.isEmpty_iff] at hempty
    have hdigits := unsigned_of_isDecimal h
    rw [hempty, String.toList_empty, unsigned] at hdigits
    exact Nat.toDigits_ne_nil hdigits.symm
  have hbool : bool? text = none := by
    rw [bool?, contains_eq_false h (by decide +kernel), contains_eq_false h (by decide +kernel)]
    rfl
  rw [resolve, hempty, if_neg (by decide), hbool, integer?_of_isDecimal h] at hvalue
  dsimp only at hvalue
  cases hsize : IntegerSize.of n with
  | word =>
    rw [hsize] at hvalue
    cases hvalue
    exact .inl rfl
  | doubleWord =>
    rw [hsize] at hvalue
    cases hvalue
  | greater =>
    rw [hsize] at hvalue
    cases hvalue
    have hlarge : 2 ^ 64 ≤ n.natAbs := by
      simp only [IntegerSize.of, Nat.pow_eq] at hsize
      split_ifs at hsize
      omega
    obtain ⟨negative, hfloating⟩ := exists_floating?_eq h
    rw [resolveFloating, unsigned_of_isDecimal h, hasLeadingZero_toDigits, if_neg (by decide),
      hfloating]
    cases hdecimal : Binary64.ofDecimal negative n.natAbs 0 with
    | none => exact .inr (.inl rfl)
    | some x =>
      refine .inr (.inr ⟨x, rfl, ?_⟩)
      exact Number.isExact_ofNat_eq_false hlarge (ofNat_of_ofDecimal (by omega) hdecimal)

end Decimal

end Yaml
end TagTemplate
