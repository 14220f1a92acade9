import IndicatorFormula.Expression.Evaluation
import IndicatorFormula.Strategy

/-! Calculation of expressions in which nothing is left to substitute.

Lenient calculation notes what is not well-formed and gives zero for it; strict calculation fails
with it. Results that are not finite are missing. -/

set_option autoImplicit false
namespace IndicatorFormula

/-- A number as an expression, in parentheses if it is negative so that it stays one operand. -/
def Number.literal (x : Number) : Except Fault Text := do
  let text := (← x.toDouble).write
  return if text.head? = some '-' then '(' :: text ++ [')'] else text

def allowedFunctions (allowAggregates : Bool) : List Builtin :=
  if allowAggregates then Builtin.all else Builtin.scalars

def evaluate (functions : List Builtin) (expression : Text) : Except Breakdown Value := do
  let tree ← (Expr.parse expression).mapError .defect
  tree.eval { functions }

def Double.finite? (x : Double) : Option Double :=
  if x.isFinite then some x else none

def calculate (settings : Settings) (strict allowAggregates : Bool) (expression : Text) :
    Traced (Option Double) :=
  let zero := some (Double.zero false)
  match evaluate (allowedFunctions allowAggregates) expression with
  | .error (.fault fault) => .fail (.fault fault)
  | .error (.defect defect) => do
    if strict || settings.logsParseWarnings then
      Traced.passOver strict (.notWellFormed defect expression)
    return zero
  | .ok value => do
    if value.isList then
      Traced.passOver strict (.notWellFormed ⟨.listResult, none⟩ expression)
      return zero
    let result ← Traced.ofExcept (value.toDouble.mapError .fault)
    return result.finite?

/-- Whether an expression is not well-formed. All function arguments are looked at, also those that
do not decide the value. -/
def hasErrors (allowAggregates : Bool) (expression : Text) : Except Failure Bool :=
  match (calculate {} true allowAggregates expression).outcome with
  | .ok _ => .ok false
  | .error (.formula _) => .ok true
  | .error failure => .error failure

end IndicatorFormula
