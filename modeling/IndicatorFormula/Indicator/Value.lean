import IndicatorFormula.Calendar.Period
import IndicatorFormula.Substitution.Explosion
import IndicatorFormula.Substitution.Extraction
import IndicatorFormula.Valuation

/-! Indicators: the ratio of two formulas, scaled. -/

set_option autoImplicit false
namespace IndicatorFormula

structure IndicatorValue where
  numerator : Number
  denominator : Number
  multiplier : Number := .int 1
  divisor : Number := .int 1
  deriving DecidableEq

namespace IndicatorValue

/-- The quotient of two numbers, unless the divisor is zero. A floating-point divisor has the
dividend converted first, which may fail. -/
def quotient? (dividend divisor : Number) : Except Fault (Option Double) := do
  if divisor.whole?.isNone then
    let _ ← dividend.toDouble
  if divisor.isZero then return none
  return some (← dividend.quotient divisor)

def factor (value : IndicatorValue) : Except Fault (Option Double) :=
  quotient? value.multiplier value.divisor

def value (value : IndicatorValue) : Except Fault (Option Double) := do
  let denominator ← value.denominator.mul value.divisor
  if denominator.isZero then return none
  quotient? (← value.numerator.mul value.multiplier) denominator

end IndicatorValue

/-- Two formulas, of which either may be absent, and the factor of their ratio. An annualized
indicator is scaled to a year. -/
structure Indicator where
  numerator : Option Text
  denominator : Option Text
  factor : Number := .int 1
  annualized : Bool := false
  deriving DecidableEq

namespace Indicator

def daysInYear : Number := .int 365

def scaling (indicator : Indicator) (days : Option Nat) : Except Fault (Number × Number) := do
  match days with
  | some days =>
    if indicator.annualized then return (← indicator.factor.mul daysInYear, .int days)
    return (indicator.factor, .int 1)
  | none => return (indicator.factor, .int 1)

/-- The values of an indicator for some periods. There are none if a formula is absent or the
denominator is zero. The denominator is calculated first, and neither formula is ever skipped. -/
def values (indicator : Indicator) (settings : Settings) (inputs : Inputs)
    (periods : Option (List Period)) : Traced (Option IndicatorValue) := do
  let some numeratorFormula := indicator.numerator | return none
  let some denominatorFormula := indicator.denominator | return none
  let days := periods.map Period.totalDays
  let inputs :=
    { inputs with days := days.map fun n => .int n, strategy := some Strategy.neverSkip.name }
  -- The journal shows which formula was calculated first.
  let denominator ← formulaValue settings inputs false denominatorFormula
  let numerator ← formulaValue settings inputs false numeratorFormula
  match numerator, denominator with
  | some numerator, some denominator =>
    if denominator.isZero then return none
    let (multiplier, divisor) ← Traced.ofExcept ((indicator.scaling days).mapError .fault)
    return some { numerator := .double numerator, denominator := .double denominator, multiplier,
                  divisor }
  | _, _ => return none

def formulas (indicator : Indicator) : List Text :=
  [indicator.numerator, indicator.denominator].filterMap id

end Indicator

def indicatorItems (catalog : Catalog) (indicators : List Indicator) :
    Traced (List DimensionalItem) := do
  let ids ← (indicators.flatMap Indicator.formulas).mapM extractIds
  Traced.ofExcept ((catalog.items (ids.flatMap ReferencedIds.items).eraseDups).mapError
    fun unknown => .unknownMetric unknown.name)

def indicatorGroups (catalog : Catalog) (indicators : List Indicator) :
    Traced (List OrgUnitGroup) := do
  let groups ← (indicators.flatMap Indicator.formulas).mapM (extractGroups catalog)
  return groups.flatten.eraseDups

def explodeIndicator (figures : Figures) (days : Option Number) (indicator : Indicator) :
    Except Failure (Option Text × Option Text) := do
  let numerator ← explode figures days (indicator.numerator.getD [])
  let denominator ← explode figures days (indicator.denominator.getD [])
  return (numerator, denominator)

end IndicatorFormula
