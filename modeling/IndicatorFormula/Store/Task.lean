import IndicatorFormula.Store.Basic
import IndicatorFormula.Text.Line

/-! Work on all indicators of a store: exploding and describing their formulas, and a report on the
formulas that are not valid. -/

set_option autoImplicit false
namespace IndicatorFormula

namespace SavedIndicator

def explode (saved : SavedIndicator) (figures : Figures) (days : Option Number) :
    Except Failure SavedIndicator := do
  let (explodedNumerator, explodedDenominator) ← explodeIndicator figures days saved.toIndicator
  return { saved with explodedNumerator, explodedDenominator }

def takeExploded (saved changed : SavedIndicator) : SavedIndicator :=
  { saved with
    explodedNumerator := changed.explodedNumerator
    explodedDenominator := changed.explodedDenominator }

/-- Describes the numerator of the indicator and then the denominator, up to the first mistake. What
has been described until then is in the indicator. -/
def describe (saved : SavedIndicator) (catalog : Catalog) : SavedIndicator × Option FormulaError :=
  match IndicatorFormula.describe catalog saved.numerator with
  | .error error => (saved, some error)
  | .ok numeratorDescription =>
    let halfway := { saved with numeratorDescription }
    match IndicatorFormula.describe catalog saved.denominator with
    | .error error => (halfway, some error)
    | .ok denominatorDescription => ({ halfway with denominatorDescription }, none)

def takeDescriptions (saved changed : SavedIndicator) : SavedIndicator :=
  { saved with
    numeratorDescription := changed.numeratorDescription
    denominatorDescription := changed.denominatorDescription }

end SavedIndicator

def shownOrNone (text : Option Text) : String :=
  (text.map String.ofList).getD "None"

namespace Store

/-- Saves some fields of changed indicators, which are taken over into the indicators with the same
ids. -/
def updateIndicators (store : Store) (take : SavedIndicator → SavedIndicator → SavedIndicator)
    (changed : List SavedIndicator) : Store :=
  { store with
    savedIndicators := store.savedIndicators.map fun saved =>
      ((changed.find? fun other => other.id == saved.id).map (take saved)).getD saved }

/-- How many days there are between two written dates. They are only read if neither is absent or
empty. -/
def daysBetween (first last : Option Text) : Except PeriodError (Option Nat) :=
  match first, last with
  | some first, some last =>
    if first.isEmpty || last.isEmpty then .ok none
      else (Period.ofTexts first last).map fun period => some period.days
  | _, _ => .ok none

def explodeAll (store : Store) (first last : Option Text) : Traced (Store × Nat) := do
  match daysBetween first last with
  | .error error =>
    Traced.note .error ("Error in explode_indicator_expressions task for period " ++
      shownOrNone first ++ " to " ++ shownOrNone last ++ ": " ++ error.message)
    Traced.fail (.period error)
  | .ok days =>
    let exploded ← Traced.ofExcept (store.indicators.mapM fun saved =>
      saved.explode store.catalog.figures (days.map fun n => .int n))
    Traced.note .info ("Exploded expressions of " ++ toString exploded.length ++
      " indicators (days: " ++ shownOrNone (days.map Text.ofNat) ++ ")")
    return (store.updateIndicators .takeExploded exploded, exploded.length)

/-- Describes indicators and gives those of which both formulas were described. The mistakes in the
others are noted. -/
def describeEach (catalog : Catalog) : List SavedIndicator → Traced (List SavedIndicator)
  | [] => return []
  | saved :: rest => do
    match saved.describe catalog with
    | (described, none) => return described :: (← describeEach catalog rest)
    | (_, some error) =>
      Traced.note
        .error ("Error describing indicator " ++ .ofList saved.uid ++ ": " ++ error.message)
      describeEach catalog rest

/-- Describes the formulas of all indicators, and gives the number of those described. The others
stay as they are. -/
def describeAll (store : Store) : Traced (Store × Nat) := do
  let described ← describeEach store.catalog store.indicators
  let errors := store.indicators.length - described.length
  Traced.note .info
    ("Described " ++ toString described.length ++ " indicators, " ++ toString errors ++ " errors")
  return (store.updateIndicators .takeDescriptions described, described.length)

structure ReportedFormula where
  name : String
  outcome : ValidationOutcome
  deriving DecidableEq, Repr

def reportedExpressions (store : Store) (predictor : Bool) :
    Except Failure (List ReportedFormula) :=
  store.expressions.mapM fun saved => do
    let outcome ←
      if predictor then validatePredictor store.catalog saved.expression
      else validateRule store.catalog saved.expression
    return ⟨"Expression " ++ toString saved.id ++ " '" ++ .ofList saved.expression ++ "'", outcome⟩

def reportedIndicators (store : Store) : Except Failure (List ReportedFormula) := do
  let reported ← store.indicators.mapM fun saved => do
    let name := "Indicator " ++ String.ofList saved.uid
    let numerator ← validateIndicator store.catalog saved.numerator
    let denominator ← validateIndicator store.catalog saved.denominator
    return [⟨name ++ " numerator", numerator⟩, ⟨name ++ " denominator", denominator⟩]
  return reported.flatten

def invalidLines (reported : List ReportedFormula) : List String :=
  (reported.filter fun formula => formula.outcome != .valid).map fun formula =>
    "  ⚠ " ++ formula.name ++ ": " ++ formula.outcome.description

def summary (checked invalid : Nat) : String :=
  if invalid = 0 then "✓ All " ++ toString checked ++ " expressions are valid"
  else "✗ " ++ toString invalid ++ " of " ++ toString checked ++ " expressions are invalid"

/-- A report on the expressions of the store, read as those of predictors or of validation rules,
and unless they are skipped on the formulas of its indicators. An expression with line ends takes
several lines of the report. -/
def validationReport (store : Store) (predictor skipIndicators : Bool) :
    Except Failure (List String) := do
  let expressions ← store.reportedExpressions predictor
  let indicators ← if skipIndicators then pure [] else store.reportedIndicators
  let reported := expressions ++ indicators
  let invalid := (invalidLines reported).length
  let heading := if skipIndicators then [] else ["Validating indicators..."]
  let entries :=
    "Validating expressions..." :: invalidLines expressions ++ heading ++ invalidLines indicators ++
      [summary reported.length invalid]
  return entries.flatMap fun entry => (Text.lines entry.toList).map .ofList

def validationCommand (store : Store) (arguments : List String) : Except Failure (List String) :=
  if arguments.all fun argument => argument == "--predictor" || argument == "--skip-indicators" then
    store.validationReport (arguments.contains "--predictor")
      (arguments.contains "--skip-indicators")
  else .error .usage

end Store
end IndicatorFormula
