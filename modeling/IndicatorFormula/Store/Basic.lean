import IndicatorFormula.Indicator.Value
import IndicatorFormula.Store.Field

/-! The store of expressions, indicator types and indicators, with the catalog that they refer to.

Every operation gives the changed store or fails; a store that an operation failed on stays as it
was. Ids are counted from one and never used again. -/

set_option autoImplicit false
namespace IndicatorFormula

structure SavedExpression where
  id : Nat
  expression : Text
  description : Text
  /-- The name of the strategy for missing values. -/
  strategy : Text
  slidingWindow : Bool
  deriving DecidableEq, Repr

def SavedExpression.title (saved : SavedExpression) : Text :=
  if saved.description.isEmpty then saved.expression else saved.description

structure IndicatorType where
  id : Nat
  name : Text
  factor : Int
  /-- Whether values are plain numbers. -/
  isNumber : Bool
  deriving DecidableEq, Repr

def IndicatorType.title (type : IndicatorType) : Text :=
  type.name ++ [' ', '(', 'x'] ++ Text.ofInt type.factor ++ [')']

structure SavedIndicator where
  id : Nat
  uid : Text
  code : Text := []
  name : Text
  type : IndicatorType
  annualized : Bool
  numerator : Text
  numeratorDescription : Text := []
  denominator : Text
  denominatorDescription : Text := []
  /-- The formulas with all that does not stand for data values replaced, once this has been
  done. -/
  explodedNumerator : Option Text := none
  explodedDenominator : Option Text := none
  deriving DecidableEq, Repr

namespace SavedIndicator

def title (saved : SavedIndicator) : Text :=
  saved.uid ++ [':', ' '] ++ saved.name

def toIndicator (saved : SavedIndicator) : Indicator where
  numerator := saved.numerator
  denominator := saved.denominator
  factor := .int saved.type.factor
  annualized := saved.annualized

end SavedIndicator

structure Store where
  catalog : Catalog
  /-- The expressions, newest first. -/
  expressions : List SavedExpression := []
  types : List IndicatorType := []
  /-- The indicators, oldest first. -/
  savedIndicators : List SavedIndicator := []
  nextExpressionId : Nat := 1
  nextTypeId : Nat := 1
  nextIndicatorId : Nat := 1

structure ExpressionFields where
  expression : Field Text := .absent
  description : Field Text := .absent
  strategy : Field Text := .absent
  slidingWindow : Field Bool := .absent

def ExpressionFields.apply (fields : ExpressionFields) (saved : SavedExpression) :
    Except Failure SavedExpression := do
  let expression ← fields.expression.stored saved.expression
  let description ← fields.description.stored saved.description
  let strategy ← fields.strategy.stored saved.strategy
  let slidingWindow ← fields.slidingWindow.stored saved.slidingWindow
  return { saved with expression, description, strategy, slidingWindow }

def SavedExpression.blank (id : Nat) : SavedExpression where
  id := id
  expression := []
  description := []
  strategy := Strategy.neverSkip.name
  slidingWindow := false

structure TypeFields where
  name : Field Text := .absent
  factor : Field Int := .absent
  isNumber : Field Bool := .absent

structure IndicatorFields where
  uid : Field Text := .absent
  name : Field Text := .absent
  typeName : Text
  numerator : Field Text := .absent
  denominator : Field Text := .absent
  annualized : Field Bool := .absent

namespace Store

/-! ### Expressions -/

def expression? (store : Store) (id : Nat) : Option SavedExpression :=
  store.expressions.find? fun saved => saved.id == id

def saveExpression (store : Store) (saved : SavedExpression) : Store :=
  { store with
    expressions := { saved with id := store.nextExpressionId } :: store.expressions
    nextExpressionId := store.nextExpressionId + 1 }

def addExpression (store : Store) (fields : ExpressionFields) : Except Failure (Store × Nat) := do
  let saved ← fields.apply (.blank store.nextExpressionId)
  return (store.saveExpression saved, store.nextExpressionId)

def updateExpression (store : Store) (id : Nat) (fields : ExpressionFields) :
    Except Failure (Store × Option SavedExpression) :=
  match store.expression? id with
  | none => .ok (store, none)
  | some saved => do
    let changed ← fields.apply saved
    let expressions := store.expressions.map fun other => if other.id = id then changed else other
    return ({ store with expressions }, some changed)

def deleteExpression (store : Store) (id : Nat) : Store × Bool :=
  ({ store with expressions := store.expressions.filter fun saved => saved.id != id },
    (store.expression? id).isSome)

def expressionValue (store : Store) (settings : Settings) (id : Nat) (inputs : Inputs) :
    Traced (Option Double) :=
  match store.expression? id with
  | none => return none
  | some saved =>
    formulaValue settings { inputs with strategy := saved.strategy } false saved.expression

/-! ### Indicators -/

def typeNamed? (store : Store) (name : Text) : Option IndicatorType :=
  store.types.find? fun type => type.name == name

def typeWithId? (store : Store) (id : Int) : Option IndicatorType :=
  store.types.find? fun type => (type.id : Int) == id

def indicator? (store : Store) (uid : Text) : Option SavedIndicator :=
  store.savedIndicators.find? fun saved => saved.uid == uid

/-- The indicators in the order of their names, older ones first among equal names. -/
def indicators (store : Store) : List SavedIndicator :=
  store.savedIndicators.mergeSort fun a b => !decide (b.name < a.name)

def saveType (store : Store) (name : Text) (factor : Int) (isNumber : Bool) :
    Store × IndicatorType :=
  let type : IndicatorType := { id := store.nextTypeId, name, factor, isNumber }
  ({ store with types := store.types ++ [type], nextTypeId := store.nextTypeId + 1 }, type)

/-- Adds an indicator type with a name of its own. Stored integers have 64 bits, and one that does
not fit is noticed before anything else that is wrong. -/
def addType (store : Store) (fields : TypeFields) : Except Failure (Store × IndicatorType) := do
  if !(Field.integerErrors (fields.factor.getD 1)).isEmpty then throw (.fault .overflow)
  let name ← fields.name.stored []
  let factor ← fields.factor.stored 1
  let isNumber ← fields.isNumber.stored false
  if (store.typeNamed? name).isSome then throw .conflict
  return store.saveType name factor isNumber

def saveIndicator (store : Store) (saved : SavedIndicator) : Store × SavedIndicator :=
  let saved := { saved with id := store.nextIndicatorId }
  ({ store with
      savedIndicators := store.savedIndicators ++ [saved]
      nextIndicatorId := store.nextIndicatorId + 1 }, saved)

def addIndicator (store : Store) (fields : IndicatorFields) :
    Except Failure (Store × SavedIndicator) := do
  let some type := store.typeNamed? fields.typeName | throw .absent
  let uid ← fields.uid.stored []
  let name ← fields.name.stored []
  let numerator ← fields.numerator.stored []
  let denominator ← fields.denominator.stored []
  let annualized ← fields.annualized.stored false
  if (store.indicator? uid).isSome then throw .conflict
  return store.saveIndicator { id := 0, uid, name, type, annualized, numerator, denominator }

def indicator (store : Store) (uid : Text) : Except Failure SavedIndicator :=
  match store.indicator? uid with
  | some saved => .ok saved
  | none => .error .absent

def indicatorValues (store : Store) (settings : Settings) (uid : Text) (inputs : Inputs)
    (periods : Except Failure (Option (List Period))) : Traced (Option IndicatorValue) := do
  let saved ← Traced.ofExcept (store.indicator uid)
  let periods ← Traced.ofExcept periods
  saved.toIndicator.values settings inputs periods

end Store
end IndicatorFormula
