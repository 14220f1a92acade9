import IndicatorFormula.Expression.Token

/-! Expressions as trees. Operators, variables and calls know their place in the text. -/

set_option autoImplicit false
namespace IndicatorFormula

inductive Expr where
  | number (value : Double)
  | boolean (value : Bool)
  | variable (name : Text) (position : Nat)
  | list (items : List Expr)
  | unary (operator : UnaryOperator) (position : Nat) (operand : Expr)
  | binary (operator : BinaryOperator) (position : Nat) (left right : Expr)
  | call (function : Text) (position : Nat) (arguments : List Expr)

def Expr.ofIdentifier (name : Text) (position : Nat) : Expr :=
  if name = ['t', 'r', 'u', 'e'] then .boolean true
  else if name = ['f', 'a', 'l', 's', 'e'] then .boolean false
  else .variable name position

end IndicatorFormula
