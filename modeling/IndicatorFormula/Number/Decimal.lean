import IndicatorFormula.Number.Double
import IndicatorFormula.Text.Digit

/-! Decimal text of floating-point numbers.

Reading gives the nearest number. Writing gives the fewest significant digits that read back as the
number, and of those the ones nearest to it. -/

set_option autoImplicit false
namespace IndicatorFormula

-- Powers are the core library's, also where there are others.
attribute [local instance (high)] instPowNat

/-- A decimal: digits, scaled by a power of ten. -/
structure Decimal where
  digits : Nat
  exponent : Int
  deriving DecidableEq, Repr

namespace Decimal

def magnitude (d : Decimal) : Nat :=
  if 0 ≤ d.exponent then Double.nearest (Double.one * (d.digits * 10 ^ d.exponent.toNat)) 1
  else Double.nearest (Double.one * d.digits) (10 ^ (-d.exponent).toNat)

/-- The number nearest to a decimal. Exponents beyond the range of every number are settled without
computing the power of ten. -/
def toDouble (negative : Bool) (d : Decimal) : Double :=
  if d.digits = 0 then .zero negative
  else if 400 < d.exponent then .infinite negative
  else if d.exponent + (Nat.toDigits 10 d.digits).length < -400 then .zero negative
  else .ofMagnitude negative d.magnitude

def leadingExponent (magnitude : Nat) : Int :=
  (Nat.toDigits 10 (10 ^ (324 : Nat) * Double.units magnitude / Double.one)).length - 325

/-- The decimal with the given last place that is nearest to a magnitude among those that read back
as it. Only the neighbours of the magnitude on the grid of that place can be; of two equally near
ones the even one is taken. -/
def onGrid? (magnitude : Nat) (exponent : Int) : Option Decimal :=
  let numerator := Double.units magnitude * if exponent < 0 then 10 ^ (-exponent).toNat else 1
  let denominator := Double.one * if 0 ≤ exponent then 10 ^ exponent.toNat else 1
  let lower : Decimal := ⟨numerator / denominator, exponent⟩
  let upper : Decimal := ⟨numerator / denominator + 1, exponent⟩
  -- The nearer neighbour is tried first.
  let closer :=
    if roundQuotient numerator denominator = lower.digits then [lower, upper] else [upper, lower]
  closer.find? fun d => d.magnitude == magnitude

/-- The decimal with the fewest digits that reads back as a positive magnitude. Seventeen digits
always do. -/
def shortest (magnitude : Nat) : Decimal :=
  let leading := leadingExponent magnitude
  ((List.range 17).findSome? fun (n : Nat) => onGrid? magnitude (leading - n)).getD
    ⟨Double.units magnitude * 5 ^ (1074 : Nat), -1074⟩

def readDigits (value : Nat) : Text → Nat × Text
  | [] => (value, [])
  | c :: rest =>
    match Text.decimalValue? c with
    | some digit => readDigits (10 * value + digit) rest
    | none => (value, c :: rest)

def readExponent? : Text → Option Int
  | [] => some 0
  | mark :: rest =>
    let (negative, digits) :=
      match rest with
      | '-' :: behind => (true, behind)
      | '+' :: behind => (false, behind)
      | _ => (false, rest)
    let (value, behind) := readDigits 0 digits
    if (mark = 'e' || mark = 'E') && !digits.isEmpty && behind.isEmpty then
      some (if negative then -(value : Int) else value)
    else none

/-- Reads an unsigned decimal: digits, an optional point and further digits, and an optional
exponent. There is at least one digit before the exponent. -/
def read? (text : Text) : Option Decimal :=
  let (whole, behind) := readDigits 0 text
  let places := text.length - behind.length
  match behind with
  | '.' :: fraction =>
    let (value, rest) := readDigits whole fraction
    let fractionPlaces := fraction.length - rest.length
    if places + fractionPlaces = 0 then none
    else (readExponent? rest).map fun exponent => ⟨value, exponent - fractionPlaces⟩
  | _ => if places = 0 then none else (readExponent? behind).map fun exponent => ⟨whole, exponent⟩

end Decimal

structure NumberLayout where
  /-- The exponents of the first digit for which the digits stand at their places around the
  point. -/
  leastPositional : Int
  greatestPositional : Int
  /-- The least number of digits of a written exponent. -/
  exponentDigits : Nat
  nan : Text
  infinity : Text

/-- From 10^-4 up to 10^16 digits stand at their places, with at least one behind the point. Other
numbers have one digit before the point and an exponent with a sign and two digits or more. -/
def numberLayout : NumberLayout where
  leastPositional := -4
  greatestPositional := 15
  exponentDigits := 2
  nan := ['n', 'a', 'n']
  infinity := ['i', 'n', 'f']

namespace NumberLayout

def positional (digits : Text) (exponent : Int) : Text :=
  if exponent < 0 then
    '0' :: '.' :: List.replicate (-exponent - 1).toNat '0' ++ digits
  else
    let count := exponent.toNat + 1
    let whole := digits.take count ++ List.replicate (count - digits.length) '0'
    let fraction := digits.drop count
    whole ++ '.' :: if fraction.isEmpty then ['0'] else fraction

def scientific (layout : NumberLayout) (digits : Text) (exponent : Int) : Text :=
  let power := Text.ofNat exponent.natAbs
  digits.take 1 ++ (if digits.length ≤ 1 then [] else '.' :: digits.drop 1) ++
    'e' :: (if exponent < 0 then '-' else '+') ::
    List.replicate (layout.exponentDigits - power.length) '0' ++ power

def magnitude (layout : NumberLayout) (m : Nat) : Text :=
  if m = 0 then ['0', '.', '0']
  else
    let d := Decimal.shortest m
    let digits := Text.ofNat d.digits
    let exponent := d.exponent + (digits.length - 1 : Nat)
    let significant := (digits.reverse.dropWhile (· == '0')).reverse
    if layout.leastPositional ≤ exponent && exponent ≤ layout.greatestPositional then
      positional significant exponent
    else layout.scientific significant exponent

def write (layout : NumberLayout) : Double → Text
  | .nan => layout.nan
  | .infinite negative => if negative then '-' :: layout.infinity else layout.infinity
  | .finite negative m => if negative then '-' :: layout.magnitude m else layout.magnitude m

end NumberLayout

def Double.write (x : Double) : Text :=
  numberLayout.write x

end IndicatorFormula
