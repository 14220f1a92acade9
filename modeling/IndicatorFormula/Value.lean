import IndicatorFormula.Number.Basic

/-! The values that expressions evaluate to.

Formulas have no types: an operator or function finds out what its operands are when it is applied,
and fails with a mismatch if it has no meaning for them.

An undefined number equals none, not even itself. Lists are compared by their first different items,
though, and for that an undefined number has to be known again. Those that are given have a mark
each, and so has the result of operations that have none. What arithmetic on undefined numbers
leaves is new every time: no list is ever compared with itself, so it needs no mark. -/

set_option autoImplicit false
namespace IndicatorFormula

inductive Value where
  /-- No value. -/
  | null
  | number (value : Number)
  /-- An undefined number that is known again by its mark. -/
  | undefined (mark : Nat)
  | list (items : List Value)
  deriving Inhabited

namespace Value

def bool (value : Bool) : Value :=
  .number (.bool value)

def int (value : Int) : Value :=
  .number (.int value)

def double (value : Double) : Value :=
  .number (.double value)

def nan : Value :=
  .undefined 0

mutual

def marked (next : Nat) : Value → Value × Nat
  | .number x => if x.isNaN then (.undefined next, next + 1) else (.number x, next)
  | .list items =>
    let (items, free) := markedAll next items
    (.list items, free)
  | value => (value, next)

def markedAll (next : Nat) : List Value → List Value × Nat
  | [] => ([], next)
  | value :: rest =>
    let (value, free) := marked next value
    let (rest, free) := markedAll free rest
    (value :: rest, free)

end

def isList : Value → Bool
  | .list _ => true
  | _ => false

def isTrue : Value → Bool
  | .null => false
  | .number x => x.isTrue
  | .undefined _ => true
  | .list items => !items.isEmpty

def isZero : Value → Bool
  | .number x => x.isZero
  | _ => false

def toNumber : Value → Except Fault Number
  | .number x => .ok x
  | .undefined _ => .ok (.double .nan)
  | _ => .error .mismatch

def arithmetic (operation : Number → Number → Except Fault Number) (x y : Value) :
    Except Fault Value := do
  let a ← x.toNumber
  let b ← y.toNumber
  return .number (← operation a b)

def add : Value → Value → Except Fault Value :=
  arithmetic Number.add

def sub : Value → Value → Except Fault Value :=
  arithmetic Number.sub

def mul : Value → Value → Except Fault Value :=
  arithmetic Number.mul

/-- A quotient by zero that is undefined is the same as any other. -/
def div (x y : Value) : Except Fault Value := do
  let quotient ← (← x.toNumber).div (← y.toNumber)
  return if y.isZero && quotient.isNaN then nan else .number quotient

/-- The remainder by zero is undefined whatever the dividend is. -/
def mod (x y : Value) : Except Fault Value := do
  if y.isZero then return nan
  let dividend ← x.toNumber
  -- A dividend out of range fails before the divisor is looked at.
  let _ ← dividend.toDouble
  return .number (← dividend.mod (← y.toNumber))

/-- A base out of range decides the power before the exponent is looked at. -/
def pow (x y : Value) : Except Fault Value := do
  let base ← x.toNumber
  match base.toDouble with
  | .error _ => return double (.infinite false)
  | .ok _ =>
    let exponent ← y.toNumber
    let power := base.pow exponent
    return if power.isNaN && !base.isNaN && !exponent.isNaN then nan else .number power

def neg (x : Value) : Except Fault Value := do
  return .number (← x.toNumber).neg

def pos : Value → Except Fault Value
  | .undefined mark => .ok (.undefined mark)
  | x => do return .number (← x.toNumber).pos

mutual

/-- Equality of values, where nothing equals nothing and lists are equal item by item. -/
def eq : Value → Value → Bool
  | .null, .null => true
  | .number x, .number y => x.eq y
  | .list xs, .list ys => allSame xs ys
  | _, _ => false

def allSame : List Value → List Value → Bool
  | [], [] => true
  | x :: xs, y :: ys => same x y && allSame xs ys
  | _, _ => false

def same : Value → Value → Bool
  | .null, .null => true
  | .number x, .number y => x.eq y
  | .undefined mark, .undefined mark' => mark == mark'
  | .list xs, .list ys => allSame xs ys
  | _, _ => false

end

mutual

/-- The order of numbers, and of lists by their first different items or else their lengths. Other
values have no order. -/
def lt : Value → Value → Except Fault Bool
  | .list xs, .list ys => listLt xs ys
  | x, y => do return (← x.toNumber).lt (← y.toNumber)

def listLt : List Value → List Value → Except Fault Bool
  | [], ys => .ok !ys.isEmpty
  | _ :: _, [] => .ok false
  | x :: xs, y :: ys => if same x y then listLt xs ys else lt x y

end

def compare (order : Number → Number → Bool) (x y : Value) : Except Fault Value := do
  let a ← x.toNumber
  let b ← y.toNumber
  return bool (order a b)

def toDouble (x : Value) : Except Fault Double := do
  (← x.toNumber).toDouble

end Value
end IndicatorFormula
