import TagTemplate.Number.Binary64

/-!
# Shortest decimals

The decimal with the fewest digits that lies nearer to a given double than to any other. Of two such
decimals the nearer is taken, and in a tie the one with the even last digit. The bounds of the
interval that rounds to a double belong to it exactly when its significand is even.
-/
namespace TagTemplate.Binary64

/-- A quarter of a unit is fine enough to name the bounds of what is rounded to a double. -/
structure Interval where
  low : Nat
  value : Nat
  high : Nat
  /-- Whether the bounds belong to the interval. -/
  closed : Bool

/-- The interval that rounds to the magnitude of a double. The double below a power of two is only
half as far away as the one above. -/
def interval (x : Binary64) : Interval :=
  let value := 4 * x.units
  let place := Nat.pow 2 x.shift
  let below := if x.significand = Nat.pow 2 52 ∧ x.shift ≠ 0 then place else 2 * place
  ⟨value - below, value, value + 2 * place, x.significand % 2 = 0⟩

/-- A multiple of `10 ^ exponent` in the interval, of two the one nearer to the value, if one of the
value's two neighbours among these multiples lies in it. -/
def Interval.onGrid (i : Interval) (exponent : Int) : Option Nat :=
  let up := Nat.pow 10 (-exponent).toNat
  let step := 4 * unitsPerOne * Nat.pow 10 exponent.toNat
  let below := i.value * up / step
  let above := below + 1
  let lowFits := if i.closed then i.low * up ≤ below * step else i.low * up < below * step
  let highFits := if i.closed then above * step ≤ i.high * up else above * step < i.high * up
  let down := i.value * up - below * step
  let rise := above * step - i.value * up
  if lowFits && highFits then
    if down < rise then some below
    else if rise < down then some above
    else if below % 2 = 0 then some below else some above
  else if lowFits then some below
  else if highFits then some above
  else none

/-- The exponent of the leading decimal digit of a double other than zero. -/
def leadingExponent (x : Binary64) : Int :=
  (Nat.toDigits 10 (x.units * Nat.pow 10 400 / unitsPerOne)).length - 401

/-- Digits and exponent of the shortest decimal; seventeen digits always suffice. -/
def shortest (x : Binary64) : Nat × Int :=
  if x.significand = 0 then (0, 0)
  else
    let least := (List.range 17).findSome? fun (n : Nat) =>
      let exponent := x.leadingExponent - n
      (x.interval.onGrid exponent).map fun digits => (digits, exponent)
    least.getD (x.units, -1074)

end TagTemplate.Binary64
