import TagTemplate.Document.Value
import TagTemplate.Text.Digits
import TagTemplate.Yaml.Fault
import TagTemplate.Yaml.Node

/-!
# The values of scalars

A plain scalar without a tag is null, a boolean, an integer, a floating-point number or else a text.
Integers are written in decimal, without leading zeros, or with `0x`, `0o` or `0b` before their
digits. A few tags prescribe the type.
-/
namespace TagTemplate.Yaml

def isNullWord (text : String) : Bool := ["null", "Null", "NULL", "~"].contains text

def bool? (text : String) : Option Bool :=
  if ["true", "True", "TRUE"].contains text then some true
  else if ["false", "False", "FALSE"].contains text then some false
  else none

def isSign (c : Char) : Bool := c == '+' || c == '-'

/-- The value of digits that a mark for their base precedes. -/
def based? : List Char → Option Nat
  | '0' :: 'x' :: digits => Text.natOfDigits? 16 digits
  | '0' :: 'o' :: digits => Text.natOfDigits? 8 digits
  | '0' :: 'b' :: digits => Text.natOfDigits? 2 digits
  | _ => none

/-- Whether digits begin with a zero that is not all of them; such digits are no number. -/
def hasLeadingZero (digits : List Char) : Bool :=
  match digits with
  | '0' :: c :: rest => (c :: rest).all Char.isDigit
  | _ => false

def decimal? (digits : List Char) : Option Nat :=
  if hasLeadingZero digits then none else Text.natOfDigits? 10 digits

def integer? : List Char → Option Int
  | '-' :: digits => ((based? digits).or (decimal? digits)).map fun n => -(n : Int)
  | '+' :: digits => ((based? digits).or (decimal? digits)).map Int.ofNat
  | digits => ((based? digits).or (decimal? digits)).map Int.ofNat

/-- What is made of an integer: those of 64 bits are values, those of 128 bits are faults, and
greater ones are not treated as integers. -/
inductive IntegerSize where
  | word
  | doubleWord
  | greater
  deriving DecidableEq, Repr

def IntegerSize.of (n : Int) : IntegerSize :=
  if -(Nat.pow 2 63 : Int) ≤ n ∧ n < Nat.pow 2 64 then .word
  else if -(Nat.pow 2 127 : Int) ≤ n ∧ n < Nat.pow 2 128 then .doubleWord
  else .greater

inductive Floating where
  | finite (value : Binary64)
  | nonFinite (value : NonFinite)
  deriving DecidableEq, Repr

def Floating.toValue : Floating → Value
  | finite x => .number (.double x)
  | nonFinite x => .nonFinite x

def exponent? : List Char → Option Int
  | '-' :: digits => (Text.natOfDigits? 10 digits).map fun n => -(n : Int)
  | '+' :: digits => (Text.natOfDigits? 10 digits).map Int.ofNat
  | digits => (Text.natOfDigits? 10 digits).map Int.ofNat

/-- The double nearest to digits with a point or an exponent or both or neither. -/
def finite? (negative : Bool) (text : List Char) : Option Binary64 := do
  let whole := text.takeWhile Char.isDigit
  let rest := text.dropWhile Char.isDigit
  let (fraction, rest) := match rest with
    | '.' :: rest => (rest.takeWhile Char.isDigit, rest.dropWhile Char.isDigit)
    | rest => ([], rest)
  let digits ← Text.natOfDigits? 10 (whole ++ fraction)
  let exponent ← match rest with
    | [] => some 0
    | c :: rest => if c = 'e' ∨ c = 'E' then exponent? rest else none
  Binary64.ofDecimal negative digits (exponent - fraction.length)

/-- A floating-point number; one too large for a double is none. -/
def floating? (text : String) : Option Floating :=
  if [".inf", ".Inf", ".INF", "+.inf", "+.Inf", "+.INF"].contains text then
    some (.nonFinite (.infinity false))
  else if ["-.inf", "-.Inf", "-.INF"].contains text then some (.nonFinite (.infinity true))
  else if [".nan", ".NaN", ".NAN"].contains text then some (.nonFinite .nan)
  else
    match text.toList with
    | '-' :: rest => (finite? true rest).map .finite
    | '+' :: rest => (finite? false rest).map .finite
    | rest => (finite? false rest).map .finite

def unsigned : List Char → List Char
  | [] => []
  | c :: rest => if isSign c then rest else c :: rest

/-- A text that is no integer. -/
def resolveFloating (text : String) : Value :=
  if hasLeadingZero (unsigned text.toList) then .string text
  else ((floating? text).map Floating.toValue).getD (.string text)

def resolve (text : String) : Except Fault Value :=
  if text.isEmpty || isNullWord text then .ok .null
  else
    match bool? text with
    | some b => .ok (.bool b)
    | none =>
      match integer? text.toList with
      | none => .ok (resolveFloating text)
      | some n =>
        match IntegerSize.of n with
        | .word => .ok (.number (.integer n))
        | .doubleWord => .error .integerOutOfRange
        | .greater => .ok (resolveFloating text)

/-- Tags of the language itself that prescribe a type other than text. -/
inductive CoreTag where
  | null
  | bool
  | int
  | float
  deriving DecidableEq, Repr

def CoreTag.ofName? (name : TagName) : Option CoreTag :=
  if name = "tag:yaml.org,2002:null".toUTF8.toList then some null
  else if name = "tag:yaml.org,2002:bool".toUTF8.toList then some bool
  else if name = "tag:yaml.org,2002:int".toUTF8.toList then some int
  else if name = "tag:yaml.org,2002:float".toUTF8.toList then some float
  else none

/-- The value of a text as the type that a tag prescribes. -/
def CoreTag.value (tag : CoreTag) (text : String) : Except Fault Value :=
  match tag with
  | null => if isNullWord text then .ok .null else .error .wrongType
  | bool => ((bool? text).map fun b => Except.ok (.bool b)).getD (.error .wrongType)
  | float => ((floating? text).map fun x => Except.ok x.toValue).getD (.error .wrongType)
  | int =>
    match integer? text.toList with
    | none => .error .wrongType
    | some n =>
      if IntegerSize.of n = .word then .ok (.number (.integer n)) else .error .integerOutOfRange

def isLocalTag : TagName → Bool
  | [] => false
  | octet :: _ => octet == 0x21

/-- Whether the name of a local tag is a text in UTF-8. -/
def isNamed (tag : TagName) : Bool := (String.fromUTF8? ⟨(tag.drop 1).toArray⟩).isSome

/-- Refuses a local tag whose name is a text. -/
def checkTag (tag : Option TagName) : Except Fault Unit :=
  if tag.any fun name => isLocalTag name && isNamed name then .error .unsupportedTag else .ok ()

def scalarValue (tag : Option TagName) (plain : Bool) (text : String) : Except Fault Value := do
  checkTag tag
  match tag with
  | none => if plain then resolve text else .ok (.string text)
  | some name =>
    match CoreTag.ofName? name with
    | some core => core.value text
    | none => if isLocalTag name && plain then resolve text else .ok (.string text)

end TagTemplate.Yaml
