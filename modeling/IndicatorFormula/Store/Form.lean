import IndicatorFormula.Store.Basic

/-! Forms: submitted records that are checked field by field and saved if nothing is wrong with
them. -/

set_option autoImplicit false
namespace IndicatorFormula

def descriptionText? (catalog : Catalog) (formula : Text) : Option Text :=
  (describe catalog formula).toOption

structure IndicatorForm where
  uid : Field Text := .absent
  code : Field Text := .absent
  name : Field Text := .absent
  typeId : Field Int := .absent
  annualized : Field Bool := .absent
  numerator : Field Text := .absent
  numeratorDescription : Field Text := .absent
  denominator : Field Text := .absent
  denominatorDescription : Field Text := .absent

namespace Store

def checkStrategy : Field Text → Checked Text :=
  Field.check false (fun name => if (Strategy.ofName? name).isSome then [] else [.noChoice name]) id

def submitExpression (store : Store) (fields : ExpressionFields) :
    Except Failure (Store × Except FormErrors SavedExpression) := do
  let expression ← fields.expression.checkFormula (validateRule store.catalog)
  let description := fields.description.checkText false (some 255) fun _ => []
  let strategy := checkStrategy fields.strategy
  let slidingWindow := fields.slidingWindow.checkPlain
  let errors := namedErrors "expression" expression ++ namedErrors "description" description ++
    namedErrors "missing_value_strategy" strategy ++ namedErrors "sliding_window" slidingWindow
  if !errors.isEmpty then return (store, .error errors)
  let saved : SavedExpression := {
    id := store.nextExpressionId
    expression := valueOr [] expression
    description := valueOr [] description
    strategy := valueOr Strategy.neverSkip.name strategy
    slidingWindow := valueOr false slidingWindow }
  return (store.saveExpression saved, .ok saved)

def takenErrors (isTaken : Bool) (kind field : String) : List FieldError :=
  if isTaken then [.taken kind field] else []

def submitType (store : Store) (fields : TypeFields) : Store × Except FormErrors IndicatorType :=
  let name := fields.name.checkText true (some 255) fun name =>
    takenErrors (store.typeNamed? name).isSome "indicator type" "name"
  let factor := fields.factor.check false Field.integerErrors id
  let isNumber := fields.isNumber.checkPlain
  let errors :=
    namedErrors "name" name ++ namedErrors "factor" factor ++ namedErrors "number" isNumber
  if !errors.isEmpty then (store, .error errors)
  else
    let (store, type) :=
      store.saveType (valueOr [] name) (valueOr 1 factor) (valueOr false isNumber)
    (store, .ok type)

def submitIndicator (store : Store) (form : IndicatorForm) :
    Except Failure (Store × Except FormErrors SavedIndicator) := do
  let uid := form.uid.checkText true (some 11) fun uid =>
    takenErrors (store.indicator? uid).isSome "indicator" "uid"
  let code := form.code.checkText false (some 64) fun _ => []
  let name := form.name.checkText true (some 255) fun _ => []
  let typeId := form.typeId.check true
    (fun id => if (store.typeWithId? id).isSome then [] else [.unknownKey id]) id
  let annualized := form.annualized.checkPlain
  let numerator ← form.numerator.checkFormula (validateIndicator store.catalog)
  let numeratorDescription := form.numeratorDescription.checkText false none fun _ => []
  let denominator ← form.denominator.checkFormula (validateIndicator store.catalog)
  let denominatorDescription := form.denominatorDescription.checkText false none fun _ => []
  let errors :=
    namedErrors "uid" uid ++ namedErrors "code" code ++ namedErrors "name" name ++
      namedErrors "indicator_type" typeId ++ namedErrors "annualized" annualized ++
      namedErrors "numerator" numerator ++
      namedErrors "numerator_description" numeratorDescription ++
      namedErrors "denominator" denominator ++
      namedErrors "denominator_description" denominatorDescription
  match errors.isEmpty, (typeId.toOption.join).bind store.typeWithId? with
  | true, some type =>
    let (store, saved) := store.saveIndicator {
      id := 0
      uid := valueOr [] uid
      code := valueOr [] code
      name := valueOr [] name
      type
      annualized := valueOr false annualized
      numerator := valueOr [] numerator
      numeratorDescription := valueOr [] numeratorDescription
      denominator := valueOr [] denominator
      denominatorDescription := valueOr [] denominatorDescription }
    return (store, .ok saved)
  | _, _ => return (store, .error errors)

end Store
end IndicatorFormula
