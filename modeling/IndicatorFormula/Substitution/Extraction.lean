import IndicatorFormula.Substitution.Pass

/-! What formulas refer to. -/

set_option autoImplicit false
namespace IndicatorFormula

structure ReferencedIds where
  items : List ItemId
  constants : List Text
  orgUnitGroups : List Text
  deriving DecidableEq, Repr

def wellFormed (formula : Text) : List Reference → Traced (List Reference)
  | [] => return []
  | reference :: rest => do
    match reference.problem? with
    | some problem =>
      Traced.note .warning ("Ignoring reference " ++ .ofList reference.text ++ " in " ++
        .ofList formula ++ ": " ++ problem.message)
      wellFormed formula rest
    | none => return reference :: (← wellFormed formula rest)

def extractIds (formula : Text) : Traced ReferencedIds := do
  let found ← wellFormed formula (references formula)
  let keys (kind : ReferenceKind) :=
    ((found.filter fun reference => reference.kind = kind).map Reference.key).eraseDups
  return {
    items := (found.filterMap Reference.itemId?).eraseDups
    constants := keys .constant
    orgUnitGroups := keys .orgUnitGroup
  }

def extractItems (catalog : Catalog) (formula : Text) : Traced (List DimensionalItem) := do
  let ids ← extractIds formula
  Traced.ofExcept ((catalog.items ids.items).mapError fun unknown => .unknownMetric unknown.name)

def extractGroups (catalog : Catalog) (formula : Text) : Traced (List OrgUnitGroup) := do
  let ids ← extractIds formula
  return ids.orgUnitGroups.filterMap fun uid => catalog.orgUnitGroup? (some uid)

def operandReferences (formula : Text) : List Reference :=
  (references formula).filter fun reference =>
    reference.kind = .dataElementOperand && reference.problem?.isNone

def extractDataElements (catalog : Catalog) (formula : Text) : List Entry :=
  ((operandReferences formula).filterMap
    fun reference => catalog.dataElement? reference.parts.head?).eraseDups

def extractOptionCombos (catalog : Catalog) (formula : Text) : List Entry :=
  ((operandReferences formula).filterMap
    fun reference => catalog.optionCombo? reference.parts[1]?).eraseDups

def operandOf (catalog : Catalog) (reference : Reference) : DimensionalItem :=
  .operand (catalog.dataElement? reference.parts.head?) (catalog.optionCombo? reference.parts[1]?)
    none

def extractOperands (catalog : Catalog) (formula : Text) : List DimensionalItem :=
  ((operandReferences formula).map (operandOf catalog)).eraseDups

def extractElementKeys (formula : Text) : List Text :=
  ((operandReferences formula).map fun reference =>
    Text.join ['.'] ((reference.parts.take 2).filter (· != wildcard))).eraseDups

/-- The fragments that the outermost calls among pieces leave between them, the last one only if it
is not empty. -/
def fragmentsBetween (lead : Text) : List CallPiece → List Text
  | [] => if lead.isEmpty then [] else [lead]
  | .call .. :: rest => lead :: fragmentsBetween [] rest
  | piece :: rest => fragmentsBetween (lead ++ piece.text) rest

/-- The arguments of the aggregate functions of a formula and the fragments around the calls, each
once. -/
structure AggregateSplit where
  aggregates : List Text
  fragments : List Text
  deriving DecidableEq, Repr

def splitAggregates (formula : Text) : Traced AggregateSplit := do
  let pieces := CallPiece.ofText aggregateFunctions formula
  passOverUnclosed false formula 0 pieces
  let arguments := pieces.filterMap fun piece =>
    match piece with
    | .call _ argument _ => some argument
    | _ => none
  return { aggregates := arguments.eraseDups, fragments := (fragmentsBetween [] pieces).eraseDups }

end IndicatorFormula
