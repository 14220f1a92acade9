import IndicatorFormula.Store.Basic

/-! Changing the catalog of a store. -/

set_option autoImplicit false
namespace IndicatorFormula

inductive CatalogKind where
  | dataElement
  | optionCombo
  | constant
  | orgUnitGroup
  | program
  | trackedAttribute
  | programIndicator
  | dataSet
  deriving DecidableEq, Repr

structure ObjectFields where
  uid : Text
  name : Field Text := .absent
  /-- The value of a constant. -/
  value : Field Number := .absent
  /-- How many members an organisation unit group has. A null leaves them as they are. -/
  memberCount : Field Nat := .absent
  /-- The uid of the program of a program indicator. -/
  program : Field Text := .absent

def putObject {α : Type} (uidOf : α → Text) (object : α) : List α → List α
  | [] => [object]
  | other :: rest =>
    if uidOf other = uidOf object then object :: rest else other :: putObject uidOf object rest

namespace ObjectFields

def entry (fields : ObjectFields) (current : Option Entry) : Except Failure Entry := do
  let name ← fields.name.stored ((current.map Entry.name).getD [])
  return ⟨fields.uid, name⟩

/-- A value for a constant. An undefined number is none, and zero is stored without a sign. -/
def constantValue (fields : ObjectFields) (current : Option Constant) : Except Failure Double := do
  match fields.value, current with
  | .absent, some constant => return constant.value
  | field, _ =>
    let value ← (← field.demanded).toDouble.mapError .fault
    if value.isNaN then throw .conflict
    return if value.isZero then .zero false else value

def programUid (fields : ObjectFields) (catalog : Catalog) (current : Option ProgramIndicator) :
    Except Failure Text := do
  match fields.program, current with
  | .absent, some indicator => return indicator.program
  | .absent, none => throw .conflict
  | .null, _ => throw .absent
  | .given uid, _ =>
    if catalog.programs.any fun program => program.uid == uid then return uid else throw .absent

def putEntry (fields : ObjectFields) (entries : List Entry) :
    Except Failure (List Entry × Entry) := do
  let entry ← fields.entry (entries.find? fun other => other.uid == fields.uid)
  return (putObject Entry.uid entry entries, entry)

end ObjectFields

namespace Catalog

def put (catalog : Catalog) (kind : CatalogKind) (fields : ObjectFields) :
    Except Failure (Catalog × Entry) := do
  match kind with
  | .dataElement =>
    let (dataElements, entry) ← fields.putEntry catalog.dataElements
    return ({ catalog with dataElements }, entry)
  | .optionCombo =>
    let (optionCombos, entry) ← fields.putEntry catalog.optionCombos
    return ({ catalog with optionCombos }, entry)
  | .program =>
    let (programs, entry) ← fields.putEntry catalog.programs
    return ({ catalog with programs }, entry)
  | .trackedAttribute =>
    let (attributes, entry) ← fields.putEntry catalog.attributes
    return ({ catalog with attributes }, entry)
  | .dataSet =>
    let (dataSets, entry) ← fields.putEntry catalog.dataSets
    return ({ catalog with dataSets }, entry)
  | .constant =>
    let current := catalog.constants.find? fun constant => constant.uid == fields.uid
    -- A value out of range is noticed before a name that is null.
    let value ← fields.constantValue current
    let entry ← fields.entry (current.map Constant.toEntry)
    let constants := putObject (fun constant => constant.uid) { entry with value } catalog.constants
    return ({ catalog with constants }, entry)
  | .orgUnitGroup =>
    let current := catalog.orgUnitGroups.find? fun group => group.uid == fields.uid
    let entry ← fields.entry (current.map OrgUnitGroup.toEntry)
    let memberCount := fields.memberCount.getD ((current.map OrgUnitGroup.memberCount).getD 0)
    let orgUnitGroups :=
      putObject (fun group => group.uid) { entry with memberCount } catalog.orgUnitGroups
    return ({ catalog with orgUnitGroups }, entry)
  | .programIndicator =>
    let current := catalog.programIndicators.find? fun indicator => indicator.uid == fields.uid
    let program ← fields.programUid catalog current
    let entry ← fields.entry (current.map ProgramIndicator.toEntry)
    let programIndicators :=
      putObject (fun indicator => indicator.uid) { entry with program } catalog.programIndicators
    return ({ catalog with programIndicators }, entry)

def ofObjects (objects : List (CatalogKind × ObjectFields)) : Except Failure Catalog :=
  objects.foldlM (fun catalog (kind, fields) => do return (← catalog.put kind fields).1) {}

def without {α : Type} (uidOf : α → Text) (uid : Text) (objects : List α) : List α × Bool :=
  (objects.filter fun object => uidOf object != uid, objects.any fun object => uidOf object == uid)

/-- Removes the object of a kind with a uid, and tells whether there was one. With a program go its
indicators. -/
def remove (catalog : Catalog) (kind : CatalogKind) (uid : Text) : Catalog × Bool :=
  match kind with
  | .dataElement =>
    let (dataElements, found) := without Entry.uid uid catalog.dataElements
    ({ catalog with dataElements }, found)
  | .optionCombo =>
    let (optionCombos, found) := without Entry.uid uid catalog.optionCombos
    ({ catalog with optionCombos }, found)
  | .program =>
    let (programs, found) := without Entry.uid uid catalog.programs
    let programIndicators :=
      catalog.programIndicators.filter fun indicator => indicator.program != uid
    ({ catalog with programs, programIndicators }, found)
  | .trackedAttribute =>
    let (attributes, found) := without Entry.uid uid catalog.attributes
    ({ catalog with attributes }, found)
  | .dataSet =>
    let (dataSets, found) := without Entry.uid uid catalog.dataSets
    ({ catalog with dataSets }, found)
  | .constant =>
    let (constants, found) := without (fun constant => constant.uid) uid catalog.constants
    ({ catalog with constants }, found)
  | .orgUnitGroup =>
    let (orgUnitGroups, found) := without (fun group => group.uid) uid catalog.orgUnitGroups
    ({ catalog with orgUnitGroups }, found)
  | .programIndicator =>
    let (programIndicators, found) :=
      without (fun indicator => indicator.uid) uid catalog.programIndicators
    ({ catalog with programIndicators }, found)

end Catalog

namespace Store

def put (store : Store) (kind : CatalogKind) (fields : ObjectFields) :
    Except Failure (Store × Entry) := do
  let (catalog, entry) ← store.catalog.put kind fields
  return ({ store with catalog }, entry)

def remove (store : Store) (kind : CatalogKind) (uid : Text) : Store × Bool :=
  let (catalog, found) := store.catalog.remove kind uid
  ({ store with catalog }, found)

end Store
end IndicatorFormula
