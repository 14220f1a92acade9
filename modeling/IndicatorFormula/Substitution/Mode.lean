import IndicatorFormula.Substitution.Extraction
import IndicatorFormula.Substitution.Filling
import IndicatorFormula.Substitution.Validation

/-! The ways of substituting the references of a formula. -/

set_option autoImplicit false
namespace IndicatorFormula

inductive SubstitutionMode where
  /-- References are replaced by numbers. -/
  | evaluate
  /-- References are replaced by names. -/
  | describe
  /-- References are replaced by a placeholder once it is known that their objects exist. -/
  | validate
  /-- References are only collected. -/
  | extractIds
  deriving DecidableEq, Repr

namespace SubstitutionMode

def all : List SubstitutionMode :=
  [.evaluate, .describe, .validate, .extractIds]

def name : SubstitutionMode → Text
  | .evaluate => "evaluate".toList
  | .describe => "describe".toList
  | .validate => "validate".toList
  | .extractIds => "extract_ids".toList

def ofName (name : Text) : Except Failure SubstitutionMode :=
  match all.find? fun mode => mode.name == name with
  | some mode => .ok mode
  | none => .error (.unknownMode name)

end SubstitutionMode

structure SubstitutionContext where
  inputs : Inputs := {}
  /-- Where references are looked up. -/
  catalog : Option Catalog := none
  allowAggregates : Bool := false
  strict : Bool := false

inductive Substituted where
  | filled (filling : Filling)
  | described (text : Text)
  | validated (verdict : Verdict)
  | extracted (ids : ReferencedIds)
  deriving DecidableEq, Repr

def SubstitutionContext.requiredCatalog (context : SubstitutionContext) : Except Failure Catalog :=
  match context.catalog with
  | some catalog => .ok catalog
  | none => .error .noCatalog

/-- Substitutes the references of a formula. An empty formula asks nothing of the context. -/
def substitute (settings : Settings) (mode : SubstitutionMode) (context : SubstitutionContext)
    (formula : Text) : Traced Substituted :=
  match mode with
  | .evaluate => do return .filled (← fill settings context.inputs context.strict formula)
  | .describe => do
    if formula.isEmpty then return .described []
    let catalog ← Traced.ofExcept context.requiredCatalog
    return .described (← Traced.ofExcept ((describe catalog formula).mapError .formula))
  | .validate => do
    if formula.isEmpty then return .validated { outcome := .empty }
    let catalog ← Traced.ofExcept context.requiredCatalog
    return .validated (← Traced.ofExcept (validate catalog context.allowAggregates formula))
  | .extractIds => do return .extracted (← extractIds formula)

end IndicatorFormula
