import IndicatorFormula.Catalog.Basic
import IndicatorFormula.Expression.Defect

/-! What can be wrong with a formula. -/

set_option autoImplicit false
namespace IndicatorFormula

inductive FormulaError where
  /-- An expression is no well-formed arithmetic. -/
  | notWellFormed (defect : Defect) (expression : Text)
  /-- The parenthesis before a position of a formula does not close. -/
  | unclosedCall (offset : Nat) (formula : Text)
  /-- A reference stands for no object. -/
  | badReference (reference : Reference) (error : ReferenceError)
  /-- The name of a referenced object holds a reference itself. -/
  | misleadingName (name : Text) (reference : Reference)
  deriving DecidableEq

def FormulaError.message : FormulaError → String
  | .notWellFormed defect expression => defect.message expression
  | .unclosedCall offset formula =>
    "Bad expression starting at " ++ toString offset ++ " in " ++ .ofList formula
  | .badReference _ error => error.message
  | .misleadingName name reference =>
    "Display name '" ++ .ofList name ++ "' of " ++ .ofList reference.text ++
      " looks like a reference"

end IndicatorFormula
