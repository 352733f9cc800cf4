/-!
# Finite doubles

A finite double is a sign, a significand below `2 ^ 53` and a shift: its value is the significand
times `2 ^ shift`, counted in units of `2 ^ (-1074)`, the least positive double. Every operation
computes its exact result as a quotient of natural numbers and rounds that once, to the nearest
double, a tie to the even significand. Powers are written `Nat.pow`, the function that is evaluated.
-/
namespace TagTemplate

structure Binary64 where
  negative : Bool
  significand : Nat
  shift : Nat
  deriving DecidableEq, Repr

namespace Binary64

def unitsPerOne : Nat := Nat.pow 2 1074

def units (x : Binary64) : Nat := x.significand * Nat.pow 2 x.shift

/-- The whole number nearest to a quotient, of two the even one. -/
def roundQuotient (num den : Nat) : Nat :=
  let q := num / den
  let r := num % den
  if 2 * r < den then q else if den < 2 * r then q + 1 else q + q % 2

/-- The double nearest to `num / den` units, unless that is beyond the greatest double. -/
def ofUnits (negative : Bool) (num den : Nat) : Option Binary64 :=
  let shift := (num / den).log2 - 52
  let significand := roundQuotient num (den * Nat.pow 2 shift)
  let rounded : Binary64 :=
    if significand = Nat.pow 2 53 then ⟨negative, Nat.pow 2 52, shift + 1⟩
    else ⟨negative, significand, shift⟩
  if rounded.shift ≤ 2045 then some rounded else none

def zero (negative : Bool) : Binary64 := ⟨negative, 0, 0⟩

def ofNat (negative : Bool) (n : Nat) : Option Binary64 := ofUnits negative (n * unitsPerOne) 1

/-- The double nearest to `digits * 10 ^ exponent`. The powers outside the range of doubles are told
apart by the number of digits alone. -/
def ofDecimal (negative : Bool) (digits : Nat) (exponent : Int) : Option Binary64 :=
  if digits = 0 then some (zero negative)
  else
    let leading := exponent + (Nat.toDigits 10 digits).length
    if 400 < leading then none
    else if leading < -400 then some (zero negative)
    else if 0 ≤ exponent then ofUnits negative (digits * Nat.pow 10 exponent.toNat * unitsPerOne) 1
    else ofUnits negative (digits * unitsPerOne) (Nat.pow 10 (-exponent).toNat)

/-- The double nearest to the product; the sign is that of the first factor. -/
def mul (x y : Binary64) : Option Binary64 := ofUnits x.negative (x.units * y.units) unitsPerOne

/-- The double nearest to the quotient; the sign is that of the dividend. -/
def div (x y : Binary64) : Option Binary64 := ofUnits x.negative (x.units * unitsPerOne) y.units

def isWhole (x : Binary64) : Bool := x.units % unitsPerOne = 0

def inWordRange (x : Binary64) : Bool :=
  if x.negative then x.units ≤ Nat.pow 2 63 * unitsPerOne
  else x.units < Nat.pow 2 64 * unitsPerOne

end Binary64
end TagTemplate
