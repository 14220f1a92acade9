import IndicatorFormula.Calendar.Period
import IndicatorFormula.Formula.Error
import IndicatorFormula.Number.Basic

/-! Why an operation of this library fails. -/

set_option autoImplicit false
namespace IndicatorFormula

inductive Failure where
  | formula (error : FormulaError)
  /-- Arithmetic has no result. -/
  | fault (fault : Fault)
  | period (error : PeriodError)
  /-- A name that no strategy for missing values has. -/
  | unknownStrategy (name : Option Text)
  /-- A name that no substitution mode has. -/
  | unknownMode (name : Text)
  | unknownReferenceKey (key : Text)
  | unknownSetting (name : Text)
  | unknownItemType (name : Text)
  | unknownMetric (name : Option Text)
  /-- There is no catalog to look up references in. -/
  | noCatalog
  /-- A stored record lacks a required value, or repeats one that has to be unique. -/
  | conflict
  /-- A stored record refers to one that does not exist. -/
  | absent
  /-- A command does not take an argument. -/
  | usage
  deriving DecidableEq

namespace Failure

def message? : Failure → Option String
  | .formula error => some error.message
  | .fault .domain => some "math domain error"
  | .fault _ => none
  | .period error => some error.message
  | .unknownStrategy name =>
    some (((name.map fun name => String.ofList name.quoted).getD "None") ++
      " is not a valid MissingValueStrategy")
  | .unknownMode name => some (.ofList name.quoted ++ " is not a valid SubstitutionMode")
  | .unknownReferenceKey key => some ("Unknown reference key '" ++ .ofList key ++ "'")
  | .unknownSetting name => some ("Unknown expression setting '" ++ .ofList name ++ "'")
  | .unknownItemType name => some (.ofList name)
  | .unknownMetric name => some ((name.map String.ofList).getD "None")
  | .noCatalog => some "An item resolver is required to describe or validate expressions"
  | .conflict | .absent | .usage => none

end Failure
end IndicatorFormula
