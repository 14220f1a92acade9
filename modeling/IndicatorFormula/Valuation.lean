import IndicatorFormula.Substitution.Filling

/-! The values of formulas. -/

set_option autoImplicit false
namespace IndicatorFormula

def filledText (settings : Settings) (inputs : Inputs) (formula : Text) : Traced (Option Text) := do
  return (← fill settings inputs false formula).result.text?

def formulaValue (settings : Settings) (inputs : Inputs) (strict : Bool) (formula : Text) :
    Traced (Option Double) := do
  let filling ← fill settings inputs strict formula
  if filling.result = .skipped then return none
  let value ←
    match filling.result.text? with
    | some text => calculate settings strict true text
    | none => pure none
  Traced.ofExcept (settings.decide inputs.strategy none filling.itemsFound filling.valuesFound
    (.zero false) value)

/-- The value of a formula that may be absent. Without a formula nothing is asked of the
strategy. -/
def optionalFormulaValue (settings : Settings) (inputs : Inputs) (strict : Bool) :
    Option Text → Traced (Option Double)
  | none => return none
  | some formula => formulaValue settings inputs strict formula

end IndicatorFormula
