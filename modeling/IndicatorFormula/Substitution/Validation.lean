import IndicatorFormula.Calculation
import IndicatorFormula.Formula.Call
import IndicatorFormula.Substitution.Description

/-! Validating formulas: the objects of all references exist, and what is left is well-formed
arithmetic. -/

set_option autoImplicit false
namespace IndicatorFormula

inductive ValidationOutcome where
  | valid
  | empty
  | itemMissing
  | constantMissing
  | orgUnitGroupMissing
  | notWellFormed
  deriving DecidableEq, Repr

namespace ValidationOutcome

def name : ValidationOutcome → String
  | .valid => "VALID"
  | .empty => "EXPRESSION_IS_EMPTY"
  | .itemMissing => "DIMENSIONAL_ITEM_OBJECT_DOES_NOT_EXIST"
  | .constantMissing => "CONSTANT_DOES_NOT_EXIST"
  | .orgUnitGroupMissing => "ORG_UNIT_GROUP_DOES_NOT_EXIST"
  | .notWellFormed => "EXPRESSION_IS_NOT_WELL_FORMED"

def description : ValidationOutcome → String
  | .valid => "Valid"
  | .empty => "Expression is empty"
  | .itemMissing => "Dimensional item object does not exist"
  | .constantMissing => "Constant does not exist"
  | .orgUnitGroupMissing => "Organisation unit group does not exist"
  | .notWellFormed => "Expression is not well-formed"

end ValidationOutcome

/-- An outcome, with the text that was looked at for it if references gave no reason against the
formula. -/
structure Verdict where
  outcome : ValidationOutcome
  text : Option Text := none
  deriving DecidableEq, Repr

def placeholder : Text := ['1', '.', '1']

def placeholderText (formula : Text) : Text :=
  let replaced := (Piece.ofText formula).flatMap fun piece =>
    match piece with
    | .plain c => [c]
    | .reference _ => placeholder
  capitalizeCalls replaced

/-- What references of a kind tell against a formula, in this order: items, constants, groups. -/
def existenceChecks : List ((Reference → Bool) × ValidationOutcome) :=
  [(Reference.isDimensional, .itemMissing),
    (fun reference => reference.kind = .constant, .constantMissing),
    (fun reference => reference.kind = .orgUnitGroup, .orgUnitGroupMissing)]

def referenceObjection? (catalog : Catalog) (missing : ValidationOutcome) (reference : Reference) :
    Option ValidationOutcome :=
  match catalog.resolveReference reference with
  | .ok _ => none
  | .error (.malformed _) => some .notWellFormed
  | .error (.missing ..) => some missing

def objection? (catalog : Catalog) (formula : Text) : Option ValidationOutcome :=
  existenceChecks.findSome? fun (applies, missing) =>
    ((references formula).filter applies).findSome? (referenceObjection? catalog missing)

def validate (catalog : Catalog) (allowAggregates : Bool) (formula : Text) :
    Except Failure Verdict := do
  if formula.isEmpty then return { outcome := .empty }
  match objection? catalog formula with
  | some outcome => return { outcome }
  | none =>
    let text := placeholderText formula
    let outcome := if ← hasErrors allowAggregates text then .notWellFormed else .valid
    return { outcome, text := some text }

def validateRule (catalog : Catalog) (formula : Text) : Except Failure ValidationOutcome := do
  return (← validate catalog false formula).outcome

def validatePredictor (catalog : Catalog) (formula : Text) : Except Failure ValidationOutcome := do
  return (← validate catalog true formula).outcome

def validateIndicator (catalog : Catalog) (formula : Text) : Except Failure ValidationOutcome :=
  match describe catalog formula with
  | .error _ => .ok .notWellFormed
  | .ok _ => validateRule catalog formula

end IndicatorFormula
