import TagTemplate.Number.Shortest

/-!
# Numbers and their text

A number of a model file is an integer or a finite double. Integers are written in full. A double is
written as its shortest decimal, which has a point or an exponent.
-/
namespace TagTemplate

structure DecimalLayout where
  /-- The least leading exponent that is written without an exponent part. -/
  least : Int
  /-- The greatest one. -/
  greatest : Int
  deriving DecidableEq, Repr

namespace DecimalLayout

/-- The text of `digits * 10 ^ exponent`. A whole number keeps one zero after the point, and an
exponent part has a sign. -/
def text (layout : DecimalLayout) (digits : Nat) (exponent : Int) : List Char :=
  let all := Nat.toDigits 10 digits
  let kept := (all.reverse.dropWhile (· == '0')).reverse
  let leading := exponent + all.length - 1
  if layout.least ≤ leading ∧ leading ≤ layout.greatest then
    if leading < 0 then
      '0' :: '.' :: (List.replicate (-leading - 1).toNat '0' ++ kept)
    else
      let whole := leading.toNat + 1
      let fraction := kept.drop whole
      kept.take whole ++ List.replicate (whole - kept.length) '0' ++
        '.' :: (if fraction.isEmpty then ['0'] else fraction)
  else
    let tail := kept.drop 1
    kept.take 1 ++ (if tail.isEmpty then [] else '.' :: tail) ++
      'e' :: (if leading < 0 then '-' else '+') :: Nat.toDigits 10 leading.natAbs

end DecimalLayout

inductive Number where
  | integer (value : Int)
  | double (value : Binary64)
  deriving DecidableEq, Repr

namespace Number

/-- Doubles have no exponent part from five places after the point to sixteen before it. -/
def layout : DecimalLayout := ⟨-5, 15⟩

def text : Number → String
  | integer n => toString n
  | double x =>
    let (digits, exponent) := x.shortest
    let magnitude := layout.text digits exponent
    String.ofList (if x.negative then '-' :: magnitude else magnitude)

/-- Whether a number is known to be the one that was written. A whole double outside the range of
64-bit integers may stand for an integer that was rounded. -/
def isExact : Number → Bool
  | integer _ => true
  | double x => !x.isWhole || x.inWordRange

end Number
end TagTemplate
