import IndicatorFormula.Catalog.Object

/-! Catalogs, and the look-up of their objects by uid. -/

set_option autoImplicit false
namespace IndicatorFormula

structure Catalog where
  dataElements : List Entry := []
  optionCombos : List Entry := []
  constants : List Constant := []
  orgUnitGroups : List OrgUnitGroup := []
  programs : List Entry := []
  attributes : List Entry := []
  programIndicators : List ProgramIndicator := []
  dataSets : List Entry := []
  deriving DecidableEq

namespace Catalog

/-- The object with a uid. Empty uids and the wildcard find nothing. -/
def find? {α : Type} (uidOf : α → Text) (objects : List α) (uid : Option Text) : Option α :=
  match uid with
  | none => none
  | some uid =>
    if uid = [] || uid = wildcard then none else objects.find? fun object => uidOf object == uid

def dataElement? (catalog : Catalog) (uid : Option Text) : Option Entry :=
  find? Entry.uid catalog.dataElements uid

def optionCombo? (catalog : Catalog) (uid : Option Text) : Option Entry :=
  find? Entry.uid catalog.optionCombos uid

def constant? (catalog : Catalog) (uid : Option Text) : Option Constant :=
  find? (fun constant => constant.uid) catalog.constants uid

def orgUnitGroup? (catalog : Catalog) (uid : Option Text) : Option OrgUnitGroup :=
  find? (fun group => group.uid) catalog.orgUnitGroups uid

def program? (catalog : Catalog) (uid : Option Text) : Option Entry :=
  find? Entry.uid catalog.programs uid

def trackedAttribute? (catalog : Catalog) (uid : Option Text) : Option Entry :=
  find? Entry.uid catalog.attributes uid

def programIndicator? (catalog : Catalog) (uid : Option Text) : Option ProgramIndicator :=
  find? (fun indicator => indicator.uid) catalog.programIndicators uid

def dataSet? (catalog : Catalog) (uid : Option Text) : Option Entry :=
  find? Entry.uid catalog.dataSets uid

/-- The combination that a part of an operand stands for: none for an absent part or the wildcard.
The look-up fails if there is no combination with the uid. -/
def operandCombo? (catalog : Catalog) (part : Option Text) : Option (Option Entry) :=
  match catalog.optionCombo? part with
  | some combo => some (some combo)
  | none => if part = none || part = some wildcard then some none else none

structure UnknownMetric where
  name : Option Text
  deriving DecidableEq, Repr

/-- The item with an identifier, if all its members exist. The metric of a reporting rate is looked
at last. -/
def item? (catalog : Catalog) (id : ItemId) : Except UnknownMetric (Option DimensionalItem) :=
  match id.type with
  | .dataElement => .ok ((catalog.dataElement? id.first).map .dataElement)
  | .dataElementOperand => .ok do
    let element ← catalog.dataElement? id.first
    -- The wildcard is a combination that any operand has; another uid has to exist.
    let categoryCombo ← catalog.operandCombo? id.second
    let attributeCombo ← catalog.operandCombo? id.third
    return .operand element categoryCombo attributeCombo
  | .programDataElement => .ok do
    let program ← catalog.program? id.first
    let element ← catalog.dataElement? id.second
    return .programDataElement program element
  | .programAttribute => .ok do
    let program ← catalog.program? id.first
    let trackedAttribute ← catalog.trackedAttribute? id.second
    return .programAttribute program trackedAttribute
  | .programIndicator => .ok ((catalog.programIndicator? id.first).map .programIndicator)
  | .reportingRate =>
    match catalog.dataSet? id.first with
    | none => .ok none
    | some dataSet =>
      match id.second.bind Metric.ofName? with
      | some metric => .ok (some (.reportingRate dataSet metric))
      | none => .error ⟨id.second⟩

def items (catalog : Catalog) (ids : List ItemId) :
    Except UnknownMetric (List DimensionalItem) := do
  let found ← ids.mapM catalog.item?
  return (found.filterMap id).eraseDups

end Catalog

inductive ReferenceError where
  | malformed (problem : PartsProblem)
  /-- It is well-formed, but nothing has the identifier. -/
  | missing (kind : ReferenceKind) (identifier : Text)
  deriving DecidableEq, Repr

def ReferenceError.message : ReferenceError → String
  | .malformed problem => problem.message
  | .missing kind identifier =>
    let what := if kind.isDimensional then "a dimensional item object" else kind.label
    "Identifier does not reference " ++ what ++ ": " ++ .ofList identifier

namespace Catalog

def resolve (catalog : Catalog) (kind : ReferenceKind) (parts : List (Option Text)) :
    Except ReferenceError CatalogObject :=
  match kind.problem? parts with
  | some problem => .error (.malformed problem)
  | none =>
    let found : Option CatalogObject :=
      match kind with
      | .constant => (catalog.constant? parts.head?.join).map .constant
      | .orgUnitGroup => (catalog.orgUnitGroup? parts.head?.join).map .orgUnitGroup
      | .days => some .days
      | _ => do
        let id ← kind.itemId? parts
        let item ← (catalog.item? id).toOption.join
        return .item item
    match found with
    | some object => .ok object
    | none => .error (.missing kind (dotted parts))

def resolveReference (catalog : Catalog) (reference : Reference) :
    Except ReferenceError CatalogObject :=
  catalog.resolve reference.kind reference.presentParts

end Catalog
end IndicatorFormula
