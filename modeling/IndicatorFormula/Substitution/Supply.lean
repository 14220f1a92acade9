import IndicatorFormula.Calculation
import IndicatorFormula.Catalog.Basic

/-! The numbers that are supplied for the references of formulas. -/

set_option autoImplicit false
namespace IndicatorFormula

/-- What is supplied for texts. Of several entries for a text, the first one counts. -/
abbrev Table (α : Type) := List (Text × α)

/-- What a value is supplied under: a text, or the identifier of an item. -/
inductive ValueKey where
  | text (key : Text)
  | item (id : ItemId)
  deriving DecidableEq, Repr

def ValueKey.dimensionItem : ValueKey → Text
  | .text key => key
  | .item id => id.dimensionItem

/-- Supplies a value for a key at its place, or at the end if the key is new. -/
def supply {κ α : Type} [DecidableEq κ] (key : κ) (value : α) : List (κ × α) → List (κ × α)
  | [] => [(key, value)]
  | (known, former) :: rest =>
    if known = key then (known, value) :: rest else (known, former) :: supply key value rest

def supplyAll {κ α : Type} [DecidableEq κ] (entries : List (κ × α)) : List (κ × α) :=
  entries.foldl (fun supplied entry => supply entry.1 entry.2 supplied) []

/-- The values that are supplied under keys, by the texts that the keys stand for. Values for equal
keys replace each other, also by none; for different keys that stand for the same text, the last
value counts. -/
def valueTable (values : List (ValueKey × Option Number)) : Table Number :=
  supplyAll ((supplyAll values).filterMap
    fun entry => entry.2.map fun value => (entry.1.dimensionItem, value))

structure Supply where
  values : Table Number := []
  constants : Table Number := []
  groupCounts : Table Number := []
  days : Option Number := none

namespace Supply

def number? (numbers : Supply) (reference : Reference) : Option Number :=
  match reference.kind with
  | .constant => numbers.constants.lookup reference.key
  | .orgUnitGroup => numbers.groupCounts.lookup reference.key
  | .days => numbers.days
  | _ => numbers.values.lookup reference.key

end Supply

/-- The samples for the arguments of aggregate functions. Samples may be missing. -/
abbrev Samples := Table (List (Option Number))

def missingLiteral : Text := ['0']

def literalOrZero (number : Option Number) : Except Fault Text :=
  match number with
  | some number => number.literal
  | none => .ok missingLiteral

end IndicatorFormula
