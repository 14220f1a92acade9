import IndicatorFormula.Journal

/-! What missing values do to the value of a formula, and the settings of the engine. -/

set_option autoImplicit false
namespace IndicatorFormula

/-- When a formula has no value because items in it have none. -/
inductive Strategy where
  | skipIfAnyMissing
  | skipIfAllMissing
  | neverSkip
  deriving DecidableEq, Repr

namespace Strategy

def all : List Strategy :=
  [.skipIfAnyMissing, .skipIfAllMissing, .neverSkip]

def name : Strategy → Text
  | .skipIfAnyMissing => "SKIP_IF_ANY_VALUE_MISSING".toList
  | .skipIfAllMissing => "SKIP_IF_ALL_VALUES_MISSING".toList
  | .neverSkip => "NEVER_SKIP".toList

def label : Strategy → String
  | .skipIfAnyMissing => "Skip if any value is missing"
  | .skipIfAllMissing => "Skip if all values are missing"
  | .neverSkip => "Never skip"

def ofName? (name : Text) : Option Strategy :=
  all.find? fun strategy => strategy.name == name

def skips (itemsFound valuesFound : Nat) : Strategy → Bool
  | .skipIfAnyMissing => valuesFound < itemsFound
  | .skipIfAllMissing => itemsFound != 0 && valuesFound == 0
  | .neverSkip => false

/-- The value of a formula. One that is not skipped is zero instead of missing, but without
`fallsThrough` only if the strategy never skips. -/
def decide {α : Type} (fallsThrough : Bool) (itemsFound valuesFound : Nat) (zero : α)
    (value : Option α) (strategy : Strategy) : Option α :=
  if strategy.skips itemsFound valuesFound then none
  else if fallsThrough || strategy = .neverSkip then some (value.getD zero)
  else value

end Strategy

structure Settings where
  /-- Whether a strategy that does not skip goes on with the rules of the strategies after it. -/
  fallsThrough : Bool := true
  /-- Whether expressions that are not well-formed are noted when they are passed over. -/
  logsParseWarnings : Bool := true
  /-- The name of the strategy for formulas without one. -/
  defaultStrategy : Option Text := some Strategy.neverSkip.name
  deriving DecidableEq, Repr

inductive SettingValue where
  | flag (value : Bool)
  | word (value : Option Text)
  deriving DecidableEq, Repr

namespace Settings

def get (settings : Settings) (name : Text) : Except Failure SettingValue :=
  if name = "MISSING_VALUE_FALLTHROUGH".toList then .ok (.flag settings.fallsThrough)
  else if name = "LOG_PARSE_WARNINGS".toList then .ok (.flag settings.logsParseWarnings)
  else if name = "DEFAULT_MISSING_VALUE_STRATEGY".toList then .ok (.word settings.defaultStrategy)
  else .error (.unknownSetting name)

def strategy (settings : Settings) (name : Option Text) : Except Failure Strategy :=
  let name := if name.getD [] = [] then settings.defaultStrategy else name
  match name.bind Strategy.ofName? with
  | some strategy => .ok strategy
  | none => .error (.unknownStrategy name)

def decide {α : Type} (settings : Settings) (name : Option Text) (fallsThrough : Option Bool)
    (itemsFound valuesFound : Nat) (zero : α) (value : Option α) : Except Failure (Option α) := do
  let strategy ← settings.strategy name
  return strategy.decide (fallsThrough.getD settings.fallsThrough) itemsFound valuesFound zero value

end Settings
end IndicatorFormula
