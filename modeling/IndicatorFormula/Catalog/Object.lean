import IndicatorFormula.Catalog.Item
import IndicatorFormula.Number.Double

/-! The objects of a catalog, and the dimensional items composed of them.

Compositions are built on demand for the references of formulas. Their members are absent where the
objects that they refer to do not exist. -/

set_option autoImplicit false
namespace IndicatorFormula

structure Entry where
  uid : Text
  name : Text
  deriving DecidableEq, Repr

structure Constant extends Entry where
  value : Double
  deriving DecidableEq

structure OrgUnitGroup extends Entry where
  memberCount : Nat
  deriving DecidableEq, Repr

structure ProgramIndicator extends Entry where
  program : Text
  deriving DecidableEq, Repr

inductive DimensionalItem where
  | dataElement (element : Entry)
  /-- A data element, as far as given for one category option combination and one attribute option
  combination. -/
  | operand (element categoryCombo attributeCombo : Option Entry)
  | programDataElement (program element : Option Entry)
  | programAttribute (program trackedAttribute : Option Entry)
  | programIndicator (indicator : ProgramIndicator)
  | reportingRate (dataSet : Option Entry) (metric : Metric)
  deriving DecidableEq, Repr

namespace DimensionalItem

/-- Without any combination, an operand is a data element. -/
def itemType : DimensionalItem → ItemType
  | .dataElement _ => .dataElement
  | .operand _ none none => .dataElement
  | .operand .. => .dataElementOperand
  | .programDataElement .. => .programDataElement
  | .programAttribute .. => .programAttribute
  | .programIndicator _ => .programIndicator
  | .reportingRate .. => .reportingRate

def uid? (entry : Option Entry) : Option Text :=
  entry.map Entry.uid

/-- The dotted identifier. The wildcard holds the place of an absent category option combination. -/
def dimensionItem : DimensionalItem → Text
  | .dataElement element => element.uid
  | .operand element categoryCombo attributeCombo =>
    let category :=
      if categoryCombo.isNone && attributeCombo.isSome then some wildcard else uid? categoryCombo
    dotted [uid? element, category, uid? attributeCombo]
  | .programDataElement program element => dotted [uid? program, uid? element]
  | .programAttribute program trackedAttribute => dotted [uid? program, uid? trackedAttribute]
  | .programIndicator indicator => indicator.uid
  | .reportingRate dataSet metric => dotted [uid? dataSet, some metric.name]

/-- The names of two members, or the dotted identifier if one of them is absent. -/
def pairName (first second : Option Entry) : Text :=
  match first, second with
  | some first, some second => first.name ++ ' ' :: second.name
  | _, _ => dotted [uid? first, uid? second]

def displayName : DimensionalItem → Text
  | .dataElement element => element.name
  | .operand element categoryCombo attributeCombo =>
    Text.join [' '] (([element, categoryCombo, attributeCombo].filterMap id).map Entry.name)
  | .programDataElement program element => pairName program element
  | .programAttribute program trackedAttribute => pairName program trackedAttribute
  | .programIndicator indicator => indicator.name
  | .reportingRate none metric => metric.displayName
  | .reportingRate (some dataSet) metric => dataSet.name ++ ' ' :: metric.displayName

end DimensionalItem

inductive CatalogObject where
  | item (item : DimensionalItem)
  | optionCombo (combo : Entry)
  | constant (constant : Constant)
  | orgUnitGroup (group : OrgUnitGroup)
  | days
  deriving DecidableEq

def CatalogObject.displayName : CatalogObject → Text
  | .item found => found.displayName
  | .optionCombo combo => combo.name
  | .constant found => found.name
  | .orgUnitGroup group => group.name
  | .days => "[Number of days]".toList

end IndicatorFormula
