import IndicatorFormula.Expression.Builtin
import IndicatorFormula.Expression.Parser

/-! Evaluation of expressions.

Division by zero and arguments outside the domain of a function give infinities and undefined
numbers instead of failing. All operands and arguments are evaluated, from left to right, also those
that do not decide the result. -/

set_option autoImplicit false
namespace IndicatorFormula

inductive Breakdown where
  | defect (defect : Defect)
  | fault (fault : Fault)
  deriving DecidableEq

structure Environment where
  bindings : Text → Option Value := fun _ => none
  functions : List Builtin := Builtin.all

/-- An environment of named values, in which no undefined number is the same as another. -/
def Environment.ofBindings (named : List (Text × Value)) (functions : List Builtin) : Environment :=
  -- The mark before the first is that of the result of operations without one.
  let (values, _) := Value.markedAll 1 (named.map Prod.snd)
  let table := (named.map Prod.fst).zip values
  { bindings := fun name => table.lookup name, functions }

namespace Expr

/-- Applies an operator in front of its operand. Lists have a truth value but are no numbers. -/
def applyUnary (operator : UnaryOperator) (operand : Value) : Except Breakdown Value :=
  match operator with
  | .not => .ok (.bool !operand.isTrue)
  | .minus | .plus =>
    if operand.isList then .error (.defect ⟨.listAsNumber, none⟩)
    else (if operator = .minus then operand.neg else operand.pos).mapError .fault

def applyArithmetic (operator : BinaryOperator) (left right : Value) : Except Fault Value :=
  match operator with
  | .or => .ok (.bool (left.isTrue || right.isTrue))
  | .and => .ok (.bool (left.isTrue && right.isTrue))
  | .gt => left.compare (fun x y => y.lt x) right
  | .lt => left.compare Number.lt right
  | .ge => left.compare (fun x y => y.le x) right
  | .le => left.compare Number.le right
  | .eq => .ok (.bool (left.eq right))
  | .ne => .ok (.bool !left.eq right)
  | .add => left.add right
  | .sub => left.sub right
  | .mul => left.mul right
  | .div => left.div right
  | .mod => left.mod right
  | .pow => left.pow right

def applyBinary (operator : BinaryOperator) (position : Nat) (left right : Value) :
    Except Breakdown Value :=
  if operator ≠ .and && operator ≠ .or && (left.isList || right.isList) then
    .error (.defect ⟨.listAsNumber, some position⟩)
  else (applyArithmetic operator left right).mapError .fault

/-- Calls a function. What it has no value for is undefined, and arguments it has no meaning for are
a defect. -/
def applyFunction (function : Builtin) (name : Text) (position : Nat) (arguments : List Value) :
    Except Breakdown Value :=
  match function.apply arguments with
  | .ok value => .ok value
  | .error .mismatch => .error (.defect ⟨.invalidArguments name, some position⟩)
  | .error .overflow | .error .domain => .ok .nan
  | .error .spread => .error (.fault .spread)

mutual

def eval (environment : Environment) : Expr → Except Breakdown Value
  | .number value => .ok (.double value)
  | .boolean value => .ok (.bool value)
  | .variable name position =>
    match environment.bindings name with
    | some value => .ok value
    | none => .error (.defect ⟨.unknownVariable name, some position⟩)
  | .list items => do return .list (← evalAll environment items)
  | .unary operator _ operand => do applyUnary operator (← eval environment operand)
  | .binary operator position left right => do
    let leftValue ← eval environment left
    let rightValue ← eval environment right
    applyBinary operator position leftValue rightValue
  | .call name position arguments =>
    -- An unknown function is noticed before its arguments are evaluated.
    match Builtin.ofName? environment.functions name with
    | none => .error (.defect ⟨.unknownFunction name, some position⟩)
    | some function => do applyFunction function name position (← evalAll environment arguments)

def evalAll (environment : Environment) : List Expr → Except Breakdown (List Value)
  | [] => .ok []
  | expression :: rest => do
    let value ← eval environment expression
    return value :: (← evalAll environment rest)

end

end Expr
end IndicatorFormula
