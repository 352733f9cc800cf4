import TagTemplate.Json.Fault
import TagTemplate.Number.Text

/-!
# JSON numerals

A numeral is read as it stands, and then valued. An integer that fits in 64 bits keeps its value. Of
any other numeral as many digits are collected as fit in a 64-bit significand, which is made a
double and then multiplied or divided by one power of ten, itself a double. So the value of a
numeral with a point or an exponent is not always the double nearest to it.
-/
namespace TagTemplate.Json

structure Exponent where
  negative : Bool
  digits : List Char
  deriving DecidableEq, Repr

def Exponent.value (e : Exponent) : Int :=
  let n : Int := Nat.ofDigitChars 10 e.digits 0
  if e.negative then -n else n

structure Numeral where
  negative : Bool
  whole : List Char
  fraction : List Char
  exponent : Option Exponent
  deriving DecidableEq, Repr

namespace Numeral

/-- The digits at the start of a text; there has to be one. -/
def readDigits (text : List Char) : Except Fault (List Char × List Char) :=
  match text.takeWhile Char.isDigit with
  | [] => .error (.expected text)
  | digits => .ok (digits, text.dropWhile Char.isDigit)

/-- The digits before the point, which have no leading zero. -/
def readWhole (text : List Char) : Except Fault (List Char × List Char) :=
  match readDigits text with
  | .ok ('0' :: _ :: _, _) => .error .malformed
  | result => result

def readFraction : List Char → Except Fault (List Char × List Char)
  | '.' :: text => readDigits text
  | text => .ok ([], text)

def readExponent : List Char → Except Fault (Option Exponent × List Char)
  | [] => .ok (none, [])
  | c :: text =>
    if c = 'e' ∨ c = 'E' then do
      let (negative, text) := match text with
        | '+' :: text => (false, text)
        | '-' :: text => (true, text)
        | _ => (false, text)
      let (digits, rest) ← readDigits text
      .ok (some ⟨negative, digits⟩, rest)
    else .ok (none, c :: text)

def read (text : List Char) : Except Fault (Numeral × List Char) := do
  let (negative, text) := match text with
    | '-' :: text => (true, text)
    | _ => (false, text)
  let (whole, text) ← readWhole text
  let (fraction, text) ← readFraction text
  let (exponent, rest) ← readExponent text
  .ok (⟨negative, whole, fraction, exponent⟩, rest)

/-- Appends digits to a significand as long as it stays below `2 ^ 64`, and counts the digits that
are left out. -/
def collect (significand : Nat) : List Char → Nat × Nat
  | [] => (significand, 0)
  | c :: digits =>
    let more := significand * 10 + (c.toNat - '0'.toNat)
    if more < Nat.pow 2 64 then collect more digits else (significand, digits.length + 1)

def powerOfTen (exponent : Nat) : Option Binary64 := Binary64.ofNat false (Nat.pow 10 exponent)

/-- Divides by a power of ten; beyond the greatest power that is a double, by that power first. -/
def divide (x : Binary64) (exponent : Nat) : Option Binary64 :=
  if exponent ≤ 308 then (powerOfTen exponent).bind x.div
  else if x.significand = 0 then some x
  else ((powerOfTen 308).bind x.div).bind fun x => divide x (exponent - 308)
termination_by exponent
decreasing_by omega

/-- A significand times a power of ten; none if that is beyond the greatest double. -/
def scale (negative : Bool) (significand : Nat) (exponent : Int) : Option Binary64 := do
  let x ← Binary64.ofNat negative significand
  if exponent < 0 then divide x exponent.natAbs
  else if exponent ≤ 308 then (powerOfTen exponent.toNat).bind x.mul
  else if significand = 0 then some x
  else none

/-- The value of a numeral; none if it is beyond the greatest double. -/
def value? (numeral : Numeral) : Option Number :=
  let (significand, dropped) := collect 0 numeral.whole
  if dropped = 0 ∧ numeral.fraction.isEmpty ∧ numeral.exponent.isNone then
    if !numeral.negative then some (.integer significand)
    else if significand ≠ 0 ∧ significand ≤ Nat.pow 2 63 then some (.integer (-significand))
    else (scale true significand 0).map .double
  else
    let (significand, cut) := collect significand numeral.fraction
    let places := numeral.fraction.length - cut
    let exponent := (numeral.exponent.map Exponent.value).getD 0
    (scale numeral.negative significand (dropped - places + exponent)).map .double

end Numeral
end TagTemplate.Json
