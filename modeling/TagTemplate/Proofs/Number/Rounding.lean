import Mathlib.Tactic.Linarith
import Mathlib.Tactic.Ring
import TagTemplate.Number.Text

/-!
# Bounds on rounded doubles

How far a quotient can fall when it is rounded to a double: never below a double that it is not
below, and never to the lower of two neighbouring doubles if it is past the middle between them. A
quotient of at least `2 ^ 52` is rounded to a whole number.
-/
namespace TagTemplate

namespace Binary64

variable {negative : Bool} {num den m t : Nat} {x : Binary64}

theorem units_eq (x : Binary64) : x.units = x.significand * 2 ^ x.shift := rfl

theorem unitsPerOne_eq : unitsPerOne = 2 ^ 1074 := by decide +kernel

theorem unitsPerOne_pos : 0 < unitsPerOne := by decide +kernel

theorem two_pow_mul_unitsPerOne (k : Nat) : 2 ^ k * unitsPerOne = 2 ^ (k + 1074) := by
  rw [unitsPerOne_eq, pow_add]

theorem roundQuotient_mul_right {k : Nat} (hk : 0 < k) (num den : Nat) :
    roundQuotient (num * k) (den * k) = roundQuotient num den := by
  unfold roundQuotient
  dsimp only
  rw [Nat.mul_div_mul_right _ _ hk, Nat.mul_mod_mul_right, ← mul_assoc]
  simp only [Nat.mul_lt_mul_right hk]

theorem le_roundQuotient (hden : 0 < den) (h : m * den ≤ num) : m ≤ roundQuotient num den := by
  have hq : m ≤ num / den := (Nat.le_div_iff_mul_le hden).2 h
  unfold roundQuotient
  dsimp only
  split_ifs <;> omega

theorem lt_roundQuotient (hden : 0 < den) (h : (2 * m + 1) * den < 2 * num) :
    m < roundQuotient num den := by
  have hsplit : den * (num / den) + num % den = num := Nat.div_add_mod num den
  have hq : m ≤ num / den := by
    rw [Nat.le_div_iff_mul_le hden]
    nlinarith
  unfold roundQuotient
  dsimp only
  by_cases hm : m = num / den
  · have hr : den < 2 * (num % den) := by
      rw [hm] at h
      nlinarith
    rw [if_neg (by omega), if_pos hr]
    omega
  · split_ifs <;> omega

/-- By how many binary places the grid is coarser on which a quotient is rounded. -/
def coarseness (num den : Nat) : Nat := (num / den).log2 - 52

theorem ofUnits_eq_of_ne {s : Nat} (hs : coarseness num den = s)
    (hround : roundQuotient num (den * 2 ^ s) = m) (hm : m ≠ 2 ^ 53) (hle : s ≤ 2045) :
    ofUnits negative num den = some ⟨negative, m, s⟩ := by
  unfold ofUnits
  simp only [Nat.pow_eq]
  rw [← coarseness, hs, hround, if_neg hm, if_pos hle]

/-- A rounded quotient lies on its grid. -/
theorem ofUnits_eq_some (h : ofUnits negative num den = some x) :
    x.negative = negative ∧
      x.units = roundQuotient num (den * 2 ^ coarseness num den) * 2 ^ coarseness num den := by
  unfold ofUnits at h
  simp only [Nat.pow_eq] at h
  rw [← coarseness] at h
  by_cases htop : roundQuotient num (den * 2 ^ coarseness num den) = 2 ^ 53
  · rw [if_pos htop] at h
    split_ifs at h
    simp only [Option.some.injEq] at h
    subst h
    refine ⟨rfl, ?_⟩
    rw [htop, units_eq]
    dsimp only
    ring
  · rw [if_neg htop] at h
    split_ifs at h
    simp only [Option.some.injEq] at h
    subst h
    exact ⟨rfl, rfl⟩

theorem two_pow_mul_le_of_pos_coarseness (hden : 0 < den) (h : 0 < coarseness num den) :
    2 ^ 52 * (den * 2 ^ coarseness num den) ≤ num := by
  have hlog : coarseness num den + 52 = (num / den).log2 := by
    rw [coarseness] at h ⊢
    omega
  have hne : num / den ≠ 0 := by
    intro hzero
    rw [coarseness, hzero] at h
    simp at h
  have hq : 2 ^ (coarseness num den + 52) ≤ num / den := by
    rw [hlog]
    exact Nat.log2_self_le hne
  rw [Nat.le_div_iff_mul_le hden, pow_add] at hq
  calc 2 ^ 52 * (den * 2 ^ coarseness num den)
      = 2 ^ coarseness num den * 2 ^ 52 * den := by ring
    _ ≤ num := hq

theorem le_coarseness (hden : 0 < den) (h : 2 ^ 52 * 2 ^ t * den ≤ num) :
    t ≤ coarseness num den := by
  have hq : 2 ^ (52 + t) ≤ num / den := by
    rw [Nat.le_div_iff_mul_le hden, pow_add]
    exact h
  have hne : num / den ≠ 0 := (lt_of_lt_of_le (Nat.two_pow_pos _) hq).ne'
  have hlog := (Nat.le_log2 hne).2 hq
  rw [coarseness]
  omega

/-- On a grid coarser than that of `2 ^ t` a rounded quotient is beyond all doubles of the
latter. -/
theorem le_units_of_lt_coarseness (h : ofUnits negative num den = some x) (hden : 0 < den)
    (hlt : t < coarseness num den) : 2 ^ 53 * 2 ^ t ≤ x.units := by
  have hnum := two_pow_mul_le_of_pos_coarseness hden (Nat.zero_lt_of_lt hlt)
  have hround : 2 ^ 52 ≤ roundQuotient num (den * 2 ^ coarseness num den) :=
    le_roundQuotient (Nat.mul_pos hden (Nat.two_pow_pos _)) hnum
  have hpow : 2 * 2 ^ t ≤ 2 ^ coarseness num den := by
    rw [← pow_succ']
    exact Nat.pow_le_pow_right (by omega) hlt
  rw [(ofUnits_eq_some h).2]
  calc 2 ^ 53 * 2 ^ t = 2 ^ 52 * (2 * 2 ^ t) := by ring
    _ ≤ _ := Nat.mul_le_mul hround hpow

/-- A quotient that is not below a double is not rounded below it. -/
theorem le_units (h : ofUnits negative num den = some x) (hden : 0 < den) (hm : 2 ^ 52 ≤ m)
    (hm' : m ≤ 2 ^ 53) (hle : m * 2 ^ t * den ≤ num) : m * 2 ^ t ≤ x.units := by
  have ht : t ≤ coarseness num den := le_coarseness hden <| le_trans
    (Nat.mul_le_mul_right _ (Nat.mul_le_mul_right _ hm)) hle
  rcases ht.lt_or_eq with hlt | heq
  · exact le_trans (Nat.mul_le_mul_right _ hm') (le_units_of_lt_coarseness h hden hlt)
  · rw [(ofUnits_eq_some h).2, ← heq]
    apply Nat.mul_le_mul_right
    apply le_roundQuotient (Nat.mul_pos hden (Nat.two_pow_pos _))
    calc m * (den * 2 ^ t) = m * 2 ^ t * den := by ring
      _ ≤ num := hle

/-- A quotient past the middle between two neighbouring doubles is not rounded to the lower. -/
theorem succ_le_units (h : ofUnits negative num den = some x) (hden : 0 < den) (hm : 2 ^ 52 ≤ m)
    (hm' : m < 2 ^ 53) (hlt : (2 * m + 1) * 2 ^ t * den < 2 * num) : (m + 1) * 2 ^ t ≤ x.units := by
  have hpos : 0 < 2 ^ t * den := Nat.mul_pos (Nat.two_pow_pos _) hden
  have hle : 2 ^ 52 * 2 ^ t * den ≤ num := by
    rw [mul_assoc] at hlt ⊢
    nlinarith
  rcases (le_coarseness hden hle).lt_or_eq with hlt' | heq
  · exact le_trans (Nat.mul_le_mul_right _ hm') (le_units_of_lt_coarseness h hden hlt')
  · rw [(ofUnits_eq_some h).2, ← heq]
    apply Nat.mul_le_mul_right
    apply lt_roundQuotient (Nat.mul_pos hden (Nat.two_pow_pos _))
    calc (2 * m + 1) * (den * 2 ^ t) = (2 * m + 1) * 2 ^ t * den := by ring
      _ < 2 * num := hlt

/-- Doubles from `2 ^ 52` on are whole. -/
theorem isWhole_of_ofUnits (h : ofUnits negative num den = some x) (hden : 0 < den)
    (hle : 2 ^ 52 * unitsPerOne * den ≤ num) : x.isWhole = true := by
  rw [unitsPerOne_eq] at hle
  have hcoarse : 1074 ≤ coarseness num den := le_coarseness (t := 1074) hden hle
  have hdvd : unitsPerOne ∣ x.units := by
    rw [(ofUnits_eq_some h).2, unitsPerOne_eq]
    exact Dvd.dvd.mul_left (pow_dvd_pow 2 hcoarse) _
  rw [isWhole, decide_eq_true_iff]
  exact Nat.mod_eq_zero_of_dvd hdvd

section Natural

variable {n : Nat} {y z : Binary64}

/-- Bounds in ones rather than in units. -/
theorem le_units_mul_unitsPerOne (h : ofUnits negative num den = some x) (hden : 0 < den)
    (hm : 2 ^ 52 ≤ m) (hm' : m ≤ 2 ^ 53) (hle : m * 2 ^ t * unitsPerOne * den ≤ num) :
    m * 2 ^ t * unitsPerOne ≤ x.units := by
  rw [mul_assoc m, two_pow_mul_unitsPerOne] at hle ⊢
  exact le_units h hden hm hm' hle

theorem le_units_ofNat (h : ofNat negative n = some x) (hm : 2 ^ 52 ≤ m) (hm' : m ≤ 2 ^ 53)
    (hle : m * 2 ^ t ≤ n) : m * 2 ^ t * unitsPerOne ≤ x.units := by
  apply le_units_mul_unitsPerOne h Nat.one_pos hm hm'
  rw [mul_one]
  exact Nat.mul_le_mul_right _ hle

theorem succ_le_units_ofNat (h : ofNat negative n = some x) (hm : 2 ^ 52 ≤ m) (hm' : m < 2 ^ 53)
    (hlt : (2 * m + 1) * 2 ^ t < 2 * n) : (m + 1) * 2 ^ t * unitsPerOne ≤ x.units := by
  rw [mul_assoc, two_pow_mul_unitsPerOne]
  apply succ_le_units h Nat.one_pos hm hm'
  rw [mul_one, ← two_pow_mul_unitsPerOne, ← mul_assoc, ← mul_assoc]
  exact Nat.mul_lt_mul_of_pos_right hlt unitsPerOne_pos

theorem le_units_mul (h : x.mul y = some z) (hm : 2 ^ 52 ≤ m) (hm' : m ≤ 2 ^ 53)
    (hle : m * 2 ^ t * unitsPerOne * unitsPerOne ≤ x.units * y.units) :
    z.negative = x.negative ∧ z.isWhole = true ∧ m * 2 ^ t * unitsPerOne ≤ z.units := by
  refine ⟨(ofUnits_eq_some h).1, isWhole_of_ofUnits h unitsPerOne_pos (le_trans ?_ hle),
    le_units_mul_unitsPerOne h unitsPerOne_pos hm hm' hle⟩
  apply Nat.mul_le_mul_right
  apply Nat.mul_le_mul_right
  exact le_trans hm (Nat.le_mul_of_pos_right _ (Nat.two_pow_pos _))

theorem coarseness_natural (hle : 2 ^ (52 + t) ≤ n) (hlt : n < 2 ^ (52 + t + 1)) :
    coarseness (n * unitsPerOne) 1 = t + 1074 := by
  have hne : n * unitsPerOne ≠ 0 :=
    (Nat.mul_pos (lt_of_lt_of_le (Nat.two_pow_pos _) hle) unitsPerOne_pos).ne'
  have hlog : (n * unitsPerOne).log2 = 52 + t + 1074 := by
    refine (Nat.log2_eq_iff hne).2 ⟨?_, ?_⟩
    · rw [← two_pow_mul_unitsPerOne]
      exact Nat.mul_le_mul_right _ hle
    · rw [Nat.add_right_comm, ← two_pow_mul_unitsPerOne]
      exact Nat.mul_lt_mul_of_pos_right hlt unitsPerOne_pos
  rw [coarseness, Nat.div_one, hlog]
  omega

theorem ofNat_eq_of_ne (hle : 2 ^ (52 + t) ≤ n) (hlt : n < 2 ^ (52 + t + 1))
    (hm : roundQuotient n (2 ^ t) ≠ 2 ^ 53) (ht : t + 1074 ≤ 2045) :
    ofNat negative n = some ⟨negative, roundQuotient n (2 ^ t), t + 1074⟩ := by
  refine ofUnits_eq_of_ne (coarseness_natural hle hlt) ?_ hm ht
  rw [one_mul, ← two_pow_mul_unitsPerOne, roundQuotient_mul_right unitsPerOne_pos]

end Natural

end Binary64

/-- A double that may stand for an integer beyond 64 bits. -/
theorem Number.isExact_double_eq_false {x : Binary64} (hwhole : x.isWhole = true)
    (hrange : if x.negative then 2 ^ 63 * Binary64.unitsPerOne < x.units
      else 2 ^ 64 * Binary64.unitsPerOne ≤ x.units) : (Number.double x).isExact = false := by
  rw [Number.isExact, hwhole, Binary64.inWordRange]
  split_ifs at hrange ⊢ with hneg
  · simpa using hrange
  · simpa using hrange

theorem Number.isExact_ofNat_eq_false {negative : Bool} {n : Nat} {x : Binary64} (hn : 2 ^ 64 ≤ n)
    (h : Binary64.ofNat negative n = some x) : (Number.double x).isExact = false := by
  have hle : 2 ^ 52 * 2 ^ 12 * Binary64.unitsPerOne ≤ x.units :=
    Binary64.le_units_ofNat h le_rfl (by omega) hn
  have hwhole : x.isWhole = true := by
    refine Binary64.isWhole_of_ofUnits h Nat.one_pos ?_
    rw [mul_one]
    exact Nat.mul_le_mul_right _ (le_trans (by omega) hn)
  refine Number.isExact_double_eq_false hwhole ?_
  split_ifs
  · exact lt_of_lt_of_le (Nat.mul_lt_mul_of_pos_right (by omega) Binary64.unitsPerOne_pos) hle
  · exact le_trans (Nat.mul_le_mul_right _ (by omega)) hle

end TagTemplate
