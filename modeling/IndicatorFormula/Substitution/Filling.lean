import IndicatorFormula.Substitution.Pass

/-! Filling in formulas: every reference is replaced by its number, so that the text can be
calculated. -/

set_option autoImplicit false
namespace IndicatorFormula

inductive FilledText where
  /-- The formula was empty. -/
  | empty
  /-- The formula has no value because values in it are missing. -/
  | skipped
  | text (filled : Text)
  deriving DecidableEq, Repr

def FilledText.text? : FilledText → Option Text
  | .text filled => some filled
  | _ => none

/-- A filled-in formula, with the number of dimensional references that were found and of those with
a value. -/
structure Filling where
  result : FilledText
  itemsFound : Nat := 0
  valuesFound : Nat := 0
  deriving DecidableEq, Repr

namespace Filling

def prepend (lead : Text) (filling : Filling) : Filling :=
  match filling.result with
  | .text filled => { filling with result := .text (lead ++ filled) }
  | _ => filling

def count (hasValue : Bool) (filling : Filling) : Filling :=
  { filling with
    itemsFound := filling.itemsFound + 1
    valuesFound := filling.valuesFound + if hasValue then 1 else 0 }

/-- A formula is skipped in which there are items, but none with a value. -/
def skipIfAllMissing (filling : Filling) : Filling :=
  if filling.itemsFound ≠ 0 ∧ filling.valuesFound = 0 then { filling with result := .skipped }
    else filling

end Filling

/-- Replaces the references among pieces by their numbers, and by zero where there is none. If
`skipsAny` holds, the first dimensional reference without a value ends this. -/
def fillPieces (numbers : Supply) (skipsAny : Bool) : List Piece → Except Fault Filling
  | [] => .ok { result := .text [] }
  | .plain c :: rest => do return (← fillPieces numbers skipsAny rest).prepend [c]
  | .reference reference :: rest => do
    let number := numbers.number? reference
    if reference.isDimensional then
      if number.isNone && skipsAny then return { result := .skipped, itemsFound := 1 }
      let lead ← literalOrZero number
      return ((← fillPieces numbers skipsAny rest).prepend lead).count number.isSome
    else
      let lead ← literalOrZero number
      return (← fillPieces numbers skipsAny rest).prepend lead

structure Inputs where
  values : List (ValueKey × Option Number) := []
  constants : Table Number := []
  groupCounts : Table Number := []
  days : Option Number := none
  samples : Option Samples := none
  /-- The name of the strategy for missing values. -/
  strategy : Option Text := none

def Inputs.supply (inputs : Inputs) : Supply where
  values := valueTable inputs.values
  constants := inputs.constants
  groupCounts := inputs.groupCounts
  days := inputs.days

/-- Fills in a formula that is not empty, under a strategy: first the aggregate functions and the
tests for missing values, then the references. -/
def fillUnder (strategy : Strategy) (inputs : Inputs) (strict : Bool) (formula : Text) :
    Traced Filling := do
  let numbers := inputs.supply
  -- Samples go first, so that references in the arguments of aggregate functions are not counted.
  let some sampled ←
    substituteSamples formula inputs.samples strategy strict | return { result := .skipped }
  let tested ← substituteNullTests sampled (fun key => (numbers.values.lookup key).isSome) strict
  let pieces := Piece.ofText (capitalizeCalls tested)
  let filling ←
    Traced.ofExcept ((fillPieces numbers (strategy = .skipIfAnyMissing) pieces).mapError .fault)
  return if strategy = .skipIfAllMissing then filling.skipIfAllMissing else filling

def fill (settings : Settings) (inputs : Inputs) (strict : Bool) (formula : Text) :
    Traced Filling := do
  if formula.isEmpty then return { result := .empty }
  let strategy ← Traced.ofExcept (settings.strategy inputs.strategy)
  fillUnder strategy inputs strict formula

end IndicatorFormula
