import TagTemplate.Proofs.Json.Entry
import TagTemplate.Proofs.Number.Rounding
import TagTemplate.Proofs.Text.Decimal

/-!
# Integers in JSON

What an integer numeral is worth. Those of 64 bits keep their value. Of greater ones the digits that
fit are made a double; above the range that double is never below `2 ^ 64`, whatever is cut off, but
just below the range there are integers whose double is the least one of the range.
-/
namespace TagTemplate.Json

namespace Numeral

open Binary64 (unitsPerOne unitsPerOne_eq)

section Collect

variable {digits : List Char} {acc : Nat}

theorem ofDigitChars_cons_ten (c : Char) (digits : List Char) (acc : Nat) :
    Nat.ofDigitChars 10 (c :: digits) acc =
      Nat.ofDigitChars 10 digits (acc * 10 + (c.toNat - '0'.toNat)) := by
  rw [Nat.ofDigitChars_cons, Nat.mul_comm]

theorem le_ofDigitChars (digits : List Char) (acc : Nat) :
    acc ≤ Nat.ofDigitChars 10 digits acc := by
  induction digits generalizing acc with
  | nil => exact le_rfl
  | cons c digits ih =>
    rw [ofDigitChars_cons_ten]
    exact le_trans (by omega) (ih _)

theorem collect_of_lt (h : Nat.ofDigitChars 10 digits acc < 2 ^ 64) :
    collect acc digits = (Nat.ofDigitChars 10 digits acc, 0) := by
  induction digits generalizing acc with
  | nil => rfl
  | cons c digits ih =>
    rw [ofDigitChars_cons_ten] at h ⊢
    have hle := le_ofDigitChars digits (acc * 10 + (c.toNat - '0'.toNat))
    rw [collect, Nat.pow_eq, if_pos (by omega), ih h]

/-- Where digits are cut off, one more of them would have been too many. -/
theorem exists_collect_of_le (hdigits : ∀ c ∈ digits, c.isDigit = true) (hacc : acc < 2 ^ 64)
    (h : 2 ^ 64 ≤ Nat.ofDigitChars 10 digits acc) :
    ∃ significand dropped, collect acc digits = (significand, dropped + 1) ∧
      2 ^ 64 ≤ significand * 10 + 9 := by
  induction digits generalizing acc with
  | nil => exact absurd h (Nat.not_le.2 hacc)
  | cons c digits ih =>
    rw [ofDigitChars_cons_ten] at h
    rw [collect, Nat.pow_eq]
    by_cases hmore : acc * 10 + (c.toNat - '0'.toNat) < 2 ^ 64
    · rw [if_pos hmore]
      exact ih (fun d hd => hdigits d (List.mem_cons_of_mem _ hd)) hmore h
    · rw [if_neg hmore]
      refine ⟨acc, digits.length, rfl, ?_⟩
      have hc := Text.digitValue_lt_ten (hdigits c List.mem_cons_self)
      omega

end Collect

def ofDigits (negative : Bool) (digits : List Char) : Numeral := ⟨negative, digits, [], none⟩

section Value

variable {negative : Bool} {digits : List Char}

theorem value?_nonnegative (h : Nat.ofDigitChars 10 digits 0 < 2 ^ 64) :
    (ofDigits false digits).value? = some (.integer (Nat.ofDigitChars 10 digits 0)) := by
  simp [value?, ofDigits, collect_of_lt h]

theorem value?_negative (hne : Nat.ofDigitChars 10 digits 0 ≠ 0)
    (h : Nat.ofDigitChars 10 digits 0 ≤ 2 ^ 63) :
    (ofDigits true digits).value? = some (.integer (-Nat.ofDigitChars 10 digits 0)) := by
  have hlt : Nat.ofDigitChars 10 digits 0 < 2 ^ 64 := by omega
  simp only [value?, ofDigits, collect_of_lt hlt, Nat.pow_eq]
  rw [if_pos (by simp), if_neg (by simp), if_pos ⟨hne, h⟩]

theorem value?_below (h : 2 ^ 63 < Nat.ofDigitChars 10 digits 0)
    (hlt : Nat.ofDigitChars 10 digits 0 < 2 ^ 64) :
    (ofDigits true digits).value? =
      (scale true (Nat.ofDigitChars 10 digits 0) 0).map .double := by
  simp only [value?, ofDigits, collect_of_lt hlt, Nat.pow_eq]
  rw [if_pos (by simp), if_neg (by simp), if_neg (by omega)]

theorem value?_beyond {significand dropped : Nat}
    (h : collect 0 digits = (significand, dropped + 1)) :
    (ofDigits negative digits).value? =
      (scale negative significand (dropped + 1 : Nat)).map .double := by
  simp only [value?, ofDigits, h, collect]
  rw [if_neg (by simp)]
  simp

end Value

/-- The least double of the range of 64-bit integers. -/
def leastWord : Binary64 := ⟨true, 2 ^ 52, 1085⟩

/-- Up to the middle between it and its neighbour, integers below the range become its least
double. -/
theorem ofNat_below {n : Nat} (h : 2 ^ 63 ≤ n) (hle : n ≤ 2 ^ 63 + 2 ^ 10) :
    Binary64.ofNat true n = some leastWord := by
  have hround : Binary64.roundQuotient n (2 ^ 11) = 2 ^ 52 := by
    have hq : n / 2 ^ 11 = 2 ^ 52 := by omega
    unfold Binary64.roundQuotient
    dsimp only
    rw [hq]
    split_ifs <;> omega
  rw [Binary64.ofNat_eq_of_ne (t := 11) (by omega) (by omega) (by omega) (by omega), hround]
  rfl

theorem powerOfTen_zero : powerOfTen 0 = some ⟨false, 2 ^ 52, 1022⟩ := by decide +kernel

theorem scale_zero (negative : Bool) (significand : Nat) :
    scale negative significand 0 =
      (Binary64.ofNat negative significand).bind fun x => x.mul ⟨false, 2 ^ 52, 1022⟩ := by
  unfold scale
  rw [Option.bind_eq_bind]
  refine congrArg (Option.bind _) (funext fun x => ?_)
  rw [if_neg (by omega), if_pos (by omega), Int.toNat_zero, powerOfTen_zero, Option.bind_some]

theorem mul_one_leastWord : leastWord.mul ⟨false, 2 ^ 52, 1022⟩ = some leastWord := by
  decide +kernel

theorem text_leastWord : (Number.double leastWord).text = "-9.223372036854776e+18" := by
  decide +kernel

section Range

variable {negative : Bool} {digits : List Char} {x : Number}

theorem value?_eq_leastWord (h : 2 ^ 63 < Nat.ofDigitChars 10 digits 0)
    (hle : Nat.ofDigitChars 10 digits 0 ≤ 2 ^ 63 + 2 ^ 10) :
    (ofDigits true digits).value? = some (.double leastWord) := by
  rw [value?_below h (by omega), scale_zero, ofNat_below (by omega) hle, Option.bind_some,
    mul_one_leastWord, Option.map_some]

theorem isExact_eq_false_of_below (h : 2 ^ 63 + 2 ^ 10 < Nat.ofDigitChars 10 digits 0)
    (hlt : Nat.ofDigitChars 10 digits 0 < 2 ^ 64)
    (hx : (ofDigits true digits).value? = some x) : x.isExact = false := by
  rw [value?_below (by omega) hlt, scale_zero, Option.map_eq_some_iff] at hx
  obtain ⟨z, hz, rfl⟩ := hx
  obtain ⟨y, hy, hmul⟩ := Option.bind_eq_some_iff.1 hz
  have hyneg : y.negative = true := (Binary64.ofUnits_eq_some hy).1
  have hyle : (2 ^ 52 + 1) * 2 ^ 11 * unitsPerOne ≤ y.units :=
    Binary64.succ_le_units_ofNat hy le_rfl (by omega) (by omega)
  have hone : Binary64.units ⟨false, 2 ^ 52, 1022⟩ = unitsPerOne := by decide +kernel
  obtain ⟨hneg, hwhole, hle⟩ := Binary64.le_units_mul (m := 2 ^ 52 + 1) (t := 11) hmul
    (by omega) (by omega) (by rw [hone]; exact Nat.mul_le_mul_right _ hyle)
  refine Number.isExact_double_eq_false hwhole ?_
  rw [hneg, if_pos hyneg]
  exact lt_of_lt_of_le (Nat.mul_lt_mul_of_pos_right (by omega) Binary64.unitsPerOne_pos) hle

theorem le_units_powerOfTen {k : Nat} {p : Binary64} (h : powerOfTen (k + 1) = some p) :
    10 * unitsPerOne ≤ p.units := by
  have hten : 10 * unitsPerOne = 5 * 2 ^ 50 * 2 ^ 1025 := by decide +kernel
  have hpower : 10 ≤ 10 ^ (k + 1) := Nat.le_self_pow (by omega) 10
  rw [hten]
  apply Binary64.le_units h Nat.one_pos (by omega) (by omega)
  rw [mul_one, ← hten]
  exact Nat.mul_le_mul_right _ hpower

theorem le_significand_mul_ten (u : Nat) :
    2 ^ 52 * 2 ^ 12 * u * u ≤ (7205759403792793 + 1) * 2 ^ 8 * u * (10 * u) := by
  calc 2 ^ 52 * 2 ^ 12 * u * u = 2 ^ 64 * (u * u) := by ring
    _ ≤ (7205759403792793 + 1) * 2 ^ 8 * 10 * (u * u) := Nat.mul_le_mul_right _ (by omega)
    _ = (7205759403792793 + 1) * 2 ^ 8 * u * (10 * u) := by ring

/-- Whatever digits are cut off: the double of an integer of `2 ^ 64` or more is not less than
that. -/
theorem isExact_eq_false_of_beyond (hdigits : ∀ c ∈ digits, c.isDigit = true)
    (h : 2 ^ 64 ≤ Nat.ofDigitChars 10 digits 0)
    (hx : (ofDigits negative digits).value? = some x) : x.isExact = false := by
  obtain ⟨significand, dropped, hcollect, hlarge⟩ := exists_collect_of_le hdigits (by omega) h
  rw [value?_beyond hcollect, Option.map_eq_some_iff] at hx
  obtain ⟨z, hz, rfl⟩ := hx
  obtain ⟨y, hy, hz⟩ := Option.bind_eq_some_iff.1 hz
  rw [if_neg (by omega)] at hz
  split_ifs at hz with hpower hzero
  · obtain ⟨p, hp, hmul⟩ := Option.bind_eq_some_iff.1 hz
    rw [Int.toNat_natCast] at hp
    -- One more digit would have been too many, so the significand is at least `2 ^ 64 / 10`.
    have hyle : (7205759403792793 + 1) * 2 ^ 8 * unitsPerOne ≤ y.units :=
      Binary64.succ_le_units_ofNat hy (by omega) (by omega) (by omega)
    have hple := le_units_powerOfTen hp
    obtain ⟨-, hwhole, hle⟩ := Binary64.le_units_mul (m := 2 ^ 52) (t := 12) hmul le_rfl
      (by omega) (le_trans (le_significand_mul_ten _) (Nat.mul_le_mul hyle hple))
    refine Number.isExact_double_eq_false hwhole ?_
    split_ifs
    · exact lt_of_lt_of_le (Nat.mul_lt_mul_of_pos_right (by omega) Binary64.unitsPerOne_pos) hle
    · exact le_trans (Nat.mul_le_mul_right _ (by omega)) hle
  · omega

end Range

def ofInt (n : Int) : Numeral := ofDigits (n < 0) (Nat.toDigits 10 n.natAbs)

section Int

variable {n : Int} {x : Number} {rest : List Char}

theorem ofInt_of_neg (h : n < 0) : ofInt n = ofDigits true (Nat.toDigits 10 n.natAbs) := by
  rw [ofInt, decide_eq_true h]

theorem ofInt_natCast (m : Nat) : ofInt m = ofDigits false (Nat.toDigits 10 m) := by
  rw [ofInt, decide_eq_false (by omega), Int.natAbs_natCast]

theorem value?_ofInt (hge : -2 ^ 63 ≤ n) (hlt : n < 2 ^ 64) :
    (ofInt n).value? = some (.integer n) := by
  by_cases hneg : n < 0
  · have hn : n = -(n.natAbs : Int) := by omega
    rw [ofInt_of_neg hneg, value?_negative, Nat.ofDigitChars_ten_toDigits, ← hn]
    · rw [Nat.ofDigitChars_ten_toDigits]
      omega
    · rw [Nat.ofDigitChars_ten_toDigits]
      omega
  · obtain ⟨m, rfl⟩ := Int.eq_ofNat_of_zero_le (Int.not_lt.1 hneg)
    rw [ofInt_natCast, value?_nonnegative, Nat.ofDigitChars_ten_toDigits]
    rw [Nat.ofDigitChars_ten_toDigits]
    omega

theorem value?_ofInt_of_near (hge : -2 ^ 63 - 2 ^ 10 ≤ n) (hlt : n < -2 ^ 63) :
    (ofInt n).value? = some (.double leastWord) := by
  rw [ofInt_of_neg (by omega), value?_eq_leastWord]
  · rw [Nat.ofDigitChars_ten_toDigits]
    omega
  · rw [Nat.ofDigitChars_ten_toDigits]
    omega

theorem isExact_eq_false_of_far (h : n < -2 ^ 63 - 2 ^ 10 ∨ 2 ^ 64 ≤ n)
    (hx : (ofInt n).value? = some x) : x.isExact = false := by
  by_cases hlarge : 2 ^ 64 ≤ n.natAbs
  · refine isExact_eq_false_of_beyond (fun c hc => Text.isDigit_of_mem_toDigits hc) ?_ hx
    rwa [Nat.ofDigitChars_ten_toDigits]
  · rw [ofInt_of_neg (by omega)] at hx
    refine isExact_eq_false_of_below ?_ ?_ hx
    · rw [Nat.ofDigitChars_ten_toDigits]
      omega
    · rw [Nat.ofDigitChars_ten_toDigits]
      omega

theorem readUnsigned_toDigits (negative : Bool) (m : Nat) (hrest : AtBorder rest) :
    readUnsigned negative (Nat.toDigits 10 m ++ rest) =
      .ok (ofDigits negative (Nat.toDigits 10 m), rest) := by
  obtain ⟨c, hc, hborder⟩ := hrest
  have hhead : ∀ d ∈ rest.head?, d = c := fun d hd => Option.some.inj (hd.symm.trans hc)
  have hwhole : readWhole (Nat.toDigits 10 m ++ rest) = .ok (Nat.toDigits 10 m, rest) := by
    refine readWhole_eq_ok_iff.2 ⟨?_, Text.toDigits_ne_zero_cons m⟩
    refine readDigits_append Nat.toDigits_ne_nil (fun d hd => Text.isDigit_of_mem_toDigits hd) ?_
    intro d hd
    rw [hhead d hd]
    exact isDigit_of_isBorder hborder
  have hfraction : readFraction rest = .ok ([], rest) :=
    readFraction_of_ne fun d hd => hhead d hd ▸ ne_point_of_isBorder hborder
  have hexponent : readExponent rest = .ok (none, rest) :=
    readExponent_of_ne fun d hd => hhead d hd ▸ not_exponent_of_isBorder hborder
  rw [readUnsigned, hwhole, Result.ok_bind]
  dsimp only
  rw [hfraction, Result.ok_bind]
  dsimp only
  rw [hexponent]
  rfl

theorem read_toString (n : Int) (hrest : AtBorder rest) :
    read ((toString n).toList ++ rest) = .ok (ofInt n, rest) := by
  by_cases hneg : n < 0
  · rw [Text.toList_toString_of_neg hneg, ofInt_of_neg hneg, List.cons_append, read_minus,
      readUnsigned_toDigits true _ hrest]
  · obtain ⟨m, rfl⟩ := Int.eq_ofNat_of_zero_le (Int.not_lt.1 hneg)
    rw [Text.toList_toString_natCast, ofInt_natCast, read_of_ne,
      readUnsigned_toDigits false m hrest]
    intro more hmore
    obtain ⟨d, digits, hdigits, hd⟩ := Text.exists_toDigits_eq_cons m
    rw [hdigits, List.cons_append] at hmore
    obtain ⟨rfl, -⟩ := List.cons.inj hmore
    exact absurd hd (by decide)

end Int

end Numeral

theorem exists_toString_eq_cons (n : Int) :
    ∃ c more, (toString n).toList = c :: more ∧ (c = '-' ∨ c.isDigit = true) := by
  by_cases hneg : n < 0
  · exact ⟨_, _, Text.toList_toString_of_neg hneg, .inl rfl⟩
  · obtain ⟨m, rfl⟩ := Int.eq_ofNat_of_zero_le (Int.not_lt.1 hneg)
    obtain ⟨c, more, hdigits, hc⟩ := Text.exists_toDigits_eq_cons m
    rw [Text.toList_toString_natCast]
    exact ⟨c, more, hdigits, .inr hc⟩

theorem readNumber_toString (n : Int) {rest : List Char} (hrest : AtBorder rest) :
    readNumber ((toString n).toList ++ rest) =
      (numberResult (.ofInt n)).map fun value => (value, rest) := by
  rw [readNumber_eq, Numeral.read_toString n hrest, Result.ok_bind]

/-- Integers are numbers, whatever spaces stand before them. -/
theorem readValue_toString (n : Int) {spaces rest : List Char} (hspaces : AllSpace spaces)
    (hrest : AtBorder rest) (depth : Nat) :
    readValue depth (spaces ++ ((toString n).toList ++ rest)) =
      (numberResult (.ofInt n)).map fun value => (value, rest) := by
  obtain ⟨c, more, hmore, hc⟩ := exists_toString_eq_cons n
  have hborder := isBorder_of_numeral hc
  have hskip : skipSpace (spaces ++ ((toString n).toList ++ rest)) =
      (toString n).toList ++ rest := by
    rw [skipSpace_append hspaces, skipSpace_of_head?]
    rw [hmore]
    rintro d ⟨⟩
    by_contra hspace
    rw [Bool.not_eq_false] at hspace
    exact absurd (isBorder_of_isSpace hspace) (by simp [hborder])
  rw [readValue_eq_readScalar, hskip, hmore, List.cons_append, readScalar_of_numeral hc,
    ← List.cons_append, ← hmore, readNumber_toString n hrest]
  · rintro text htext
    rw [hskip, hmore] at htext
    cases htext
    exact absurd hc (by decide)
  · rintro text htext
    rw [hskip, hmore] at htext
    cases htext
    exact absurd hc (by decide)

end TagTemplate.Json
