import IndicatorFormula.Number.Decimal
import IndicatorFormula.Number.Elementary

/-! The numbers that formulas compute with: truth values, unbounded integers and floating-point
numbers.

Sums, differences and products of integers and truth values are exact integers. As soon as a
floating-point number takes part the others are converted to it, which fails for integers beyond its
range. Comparison is exact. -/

set_option autoImplicit false
namespace IndicatorFormula

-- Powers are the core library's, also where there are others.
attribute [local instance (high)] instPowNat

inductive Fault where
  /-- A value of the wrong kind, or the wrong number of arguments. -/
  | mismatch
  /-- A result beyond the range of floating-point numbers. -/
  | overflow
  /-- Arguments outside the domain of the operation. -/
  | domain
  /-- The spread of samples that are not all finite. -/
  | spread
  deriving DecidableEq, Repr

inductive Number where
  | bool (value : Bool)
  | int (value : Int)
  | double (value : Double)
  deriving DecidableEq

namespace Number

def whole? : Number → Option Int
  | .bool value => some (if value then 1 else 0)
  | .int value => some value
  | .double _ => none

/-- The nearest floating-point number, which has to be finite for an integer. -/
def toDouble : Number → Except Fault Double
  | .double value => .ok value
  | .bool value => .ok (.ofInt (if value then 1 else 0))
  | .int value =>
    match Double.ofInt value with
    | .infinite _ => .error .overflow
    | x => .ok x

def combine (ints : Int → Int → Int) (doubles : Double → Double → Double) (x y : Number) :
    Except Fault Number :=
  match x.whole?, y.whole? with
  | some a, some b => .ok (.int (ints a b))
  | _, _ => do
    let a ← x.toDouble
    let b ← y.toDouble
    return .double (doubles a b)

def add : Number → Number → Except Fault Number :=
  combine (· + ·) Double.add

def sub : Number → Number → Except Fault Number :=
  combine (· - ·) Double.sub

def mul : Number → Number → Except Fault Number :=
  combine (· * ·) Double.mul

def neg : Number → Number
  | .double value => .double value.neg
  | .bool value => .int (if value then -1 else 0)
  | .int value => .int (-value)

def pos : Number → Number
  | .bool value => .int (if value then 1 else 0)
  | x => x

def abs : Number → Number
  | .double value => .double value.abs
  | .bool value => .int (if value then 1 else 0)
  | .int value => .int value.natAbs

def inRange : Double → Except Fault Double
  | .infinite _ => .error .overflow
  | x => .ok x

/-- The quotient by a number other than zero, as a floating-point number. That of two integers is
rounded once; it has the sign of zero that its divisor gives it. -/
def quotient (x y : Number) : Except Fault Double :=
  match x.whole?, y.whole? with
  | some a, some b => inRange (.ofRatio (decide (a < 0) != decide (b < 0)) a.natAbs b.natAbs)
  | _, _ => do
    let a ← x.toDouble
    let b ← y.toDouble
    return a.div b

def extended? : Number → Option Extended
  | .double value => value.extended?
  | .bool value => some (.at (if value then Double.one else 0))
  | .int value => some (.at (value * Double.one))

/-- An undefined number is less than none, and none is less than it. -/
def lt (x y : Number) : Bool :=
  match x.extended?, y.extended? with
  | some a, some b => a.lt b
  | _, _ => false

def eq (x y : Number) : Bool :=
  match x.extended?, y.extended? with
  | some a, some b => a == b
  | _, _ => false

def le (x y : Number) : Bool :=
  x.lt y || x.eq y

def isNaN : Number → Bool
  | .double value => value.isNaN
  | _ => false

def isZero : Number → Bool
  | .double value => value.isZero
  | .bool value => !value
  | .int value => value == 0

def isTrue (x : Number) : Bool :=
  !x.isZero

def toInt (rule : Double → Option Int) : Number → Except Fault Int
  | .double value =>
    match rule value with
    | some n => .ok n
    | none => .error .domain
  | .bool value => .ok (if value then 1 else 0)
  | .int value => .ok value

def floor : Number → Except Fault Int :=
  toInt Double.floor?

def ceil : Number → Except Fault Int :=
  toInt Double.ceil?

def truncate : Number → Except Fault Int :=
  toInt Double.truncate?

/-- Division by zero gives an infinity with the sign of the dividend, and no number for a dividend
of zero. -/
def div (x y : Number) : Except Fault Number :=
  if y.isZero then
    if x.isZero then .ok (.double .nan)
    else do
      let dividend ← x.toDouble
      if dividend.isNaN then return .double .nan
      return .double (.infinite (dividend.extended?.any fun place => place.lt (.at 0)))
  else do return .double (← quotient x y)

/-- The remainder of floating-point numbers. A remainder by zero is no number; that of an infinity
fails. -/
def mod (x y : Number) : Except Fault Number :=
  if y.isZero then .ok (.double .nan)
  else do
    let a ← x.toDouble
    let b ← y.toDouble
    let result := a.remainder b
    if result.isNaN && !a.isNaN && !b.isNaN then throw .domain
    return .double result

/-- The power of floating-point numbers. Out of range it is positive infinity, also for a negative
base; a negative power of zero is no number. -/
def pow (x y : Number) : Number :=
  match x.toDouble, y.toDouble with
  | .ok a, .ok b =>
    match a.pow b with
    | .infinite negative =>
      if a.isFinite && b.isFinite then .double (if a.isZero then .nan else .infinite false)
      else .double (.infinite negative)
    | result => .double result
  | _, _ => .double (.infinite false)

def roundInt (places n : Int) : Int :=
  if 0 ≤ places then n
  else if ((Nat.toDigits 10 n.natAbs).length : Int) < -places then 0
  else
    let scale := 10 ^ (-places).toNat
    let size : Nat := roundQuotient n.natAbs scale * scale
    if n < 0 then -(size : Int) else size

def roundAt (places : Int) : Number → Except Fault Number
  | .double value =>
    match value, value.roundAt places with
    | .finite .., .infinite _ => .error .overflow
    | _, result => .ok (.double result)
  | .bool value => .ok (.int (roundInt places (if value then 1 else 0)))
  | .int value => .ok (.int (roundInt places value))

def sqrt (x : Number) : Except Fault Number := do
  let a ← x.toDouble
  if a.extended?.any fun place => place.lt (.at 0) then throw .domain
  return .double a.sqrt

def exp (x : Number) : Except Fault Number := do
  let a ← x.toDouble
  match a, a.exp with
  | .finite .., .infinite _ => throw .overflow
  | _, result => return .double result

/-- A logarithm with the given rule for floating-point numbers. Integers beyond their range are
split into a fraction, at least one half and below one, and a power of two first. -/
def logarithm (rule : Double → Double) (x : Number) : Except Fault Double := do
  if x.extended?.any fun place => !(Extended.at 0).lt place then throw .domain
  match x, x.toDouble with
  | .int n, .error _ =>
    let bits := n.natAbs.log2 + 1
    let fraction := Double.ofRatio false n.natAbs (2 ^ bits)
    let (fraction, bits) :=
      if fraction = .ofInt 1 then (.ofRatio false 1 2, bits + 1) else (fraction, bits)
    return (rule fraction).add ((rule (.ofInt 2)).mul (.ofInt bits))
  | _, a => return rule (← a)

def write : Number → Text
  | .double value => value.write
  | .bool value => if value then ['T', 'r', 'u', 'e'] else ['F', 'a', 'l', 's', 'e']
  | .int value => Text.ofInt value

end Number
end IndicatorFormula
