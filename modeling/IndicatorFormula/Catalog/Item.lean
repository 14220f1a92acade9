import IndicatorFormula.Formula.Reference

/-! Identifiers of dimensional items, the things of a catalog that data values are collected for. -/

set_option autoImplicit false
namespace IndicatorFormula

/-- The part of a reference that stands for any option combination. -/
def wildcard : Text := ['*']

inductive ItemType where
  | dataElement
  | dataElementOperand
  | programDataElement
  | programAttribute
  | programIndicator
  | reportingRate
  deriving DecidableEq, Repr

namespace ItemType

def all : List ItemType :=
  [.dataElement, .dataElementOperand, .programDataElement, .programAttribute, .programIndicator,
    .reportingRate]

def name : ItemType → String
  | .dataElement => "DATA_ELEMENT"
  | .dataElementOperand => "DATA_ELEMENT_OPERAND"
  | .programDataElement => "PROGRAM_DATA_ELEMENT"
  | .programAttribute => "PROGRAM_ATTRIBUTE"
  | .programIndicator => "PROGRAM_INDICATOR"
  | .reportingRate => "REPORTING_RATE"

def ofName? (name : String) : Option ItemType :=
  all.find? fun type => type.name == name

end ItemType

inductive Metric where
  | reportingRate
  | reportingRateOnTime
  | actualReports
  | actualReportsOnTime
  | expectedReports
  deriving DecidableEq, Repr

namespace Metric

def all : List Metric :=
  [.reportingRate, .reportingRateOnTime, .actualReports, .actualReportsOnTime, .expectedReports]

def name : Metric → Text
  | .reportingRate => "REPORTING_RATE".toList
  | .reportingRateOnTime => "REPORTING_RATE_ON_TIME".toList
  | .actualReports => "ACTUAL_REPORTS".toList
  | .actualReportsOnTime => "ACTUAL_REPORTS_ON_TIME".toList
  | .expectedReports => "EXPECTED_REPORTS".toList

def displayName : Metric → Text
  | .reportingRate => "Reporting rate".toList
  | .reportingRateOnTime => "Reporting rate on time".toList
  | .actualReports => "Actual reports".toList
  | .actualReportsOnTime => "Actual reports on time".toList
  | .expectedReports => "Expected reports".toList

def ofName? (name : Text) : Option Metric :=
  all.find? fun metric => metric.name == name

end Metric

def dotted (parts : List (Option Text)) : Text :=
  Text.join ['.'] ((parts.filterMap id).filter fun part => !part.isEmpty)

structure ItemId where
  type : ItemType
  first : Text
  second : Option Text
  third : Option Text
  deriving DecidableEq, Repr

namespace ItemId

def dimensionItem (id : ItemId) : Text :=
  dotted [some id.first, id.second, id.third]

def text (id : ItemId) : Text :=
  id.type.name.toList ++ ':' :: id.dimensionItem

end ItemId

inductive PartsProblem where
  | noItemReference (kind : ReferenceKind)
  | count (kind : ReferenceKind) (found : Nat)
  | part (part : Option Text)
  | metric (name : Text)
  deriving DecidableEq, Repr

namespace ReferenceKind

/-- The least and the greatest number of parts of references of a kind. -/
def partCounts : ReferenceKind → Nat × Nat
  | .dataElementOperand => (1, 3)
  | .programDataElement | .programAttribute | .reportingRate => (2, 2)
  | .programIndicator | .constant | .orgUnitGroup => (1, 1)
  | .days | .aggregate => (0, 0)

/-- Whether a text is a uid: word characters, which one line end may follow. -/
def isUid (text : Text) : Bool :=
  let characters := if text.getLast? = some '\n' then text.dropLast else text
  !characters.isEmpty && characters.all Text.isWord

/-- Whether a part may stand behind `index` other parts. Option combinations may be the wildcard. -/
def acceptsPart (kind : ReferenceKind) (index : Nat) (part : Option Text) : Bool :=
  (part = some wildcard && kind = .dataElementOperand && 0 < index) || part.any isUid

def badPart? (kind : ReferenceKind) (index : Nat) : List (Option Text) → Option (Option Text)
  | [] => none
  | part :: parts =>
    if kind.acceptsPart index part then kind.badPart? (index + 1) parts else some part

def problem? (kind : ReferenceKind) (parts : List (Option Text)) : Option PartsProblem :=
  let (least, greatest) := kind.partCounts
  if kind = .aggregate then some (.noItemReference kind)
  else if parts.length < least || greatest < parts.length then some (.count kind parts.length)
  else
    match kind.badPart? 0 parts, kind, parts with
    | some part, _, _ => some (.part part)
    | none, .reportingRate, [_, some name] =>
      if (Metric.ofName? name).isNone then some (.metric name) else none
    | none, _, _ => none

def itemType? (kind : ReferenceKind) (partCount : Nat) : Option ItemType :=
  match kind with
  | .dataElementOperand => some (if partCount = 1 then .dataElement else .dataElementOperand)
  | .programDataElement => some .programDataElement
  | .programAttribute => some .programAttribute
  | .programIndicator => some .programIndicator
  | .reportingRate => some .reportingRate
  | .constant | .orgUnitGroup | .days | .aggregate => none

def itemId? (kind : ReferenceKind) (parts : List (Option Text)) : Option ItemId :=
  if (kind.problem? parts).isSome then none
  else do
    let type ← kind.itemType? parts.length
    let first ← parts.head?.join
    return ⟨type, first, parts[1]?.join, parts[2]?.join⟩

end ReferenceKind

def PartsProblem.message : PartsProblem → String
  | .noItemReference kind => kind.name ++ " is not an item reference"
  | .count kind found =>
    kind.name ++ " takes " ++ toString kind.partCounts.1 ++ "-" ++ toString kind.partCounts.2 ++
      " identifier parts, got " ++ toString found
  | .part found => "Invalid identifier part '" ++ ((found.map String.ofList).getD "None") ++ "'"
  | .metric name => "Unknown reporting rate metric '" ++ .ofList name ++ "'"

namespace Reference

def presentParts (reference : Reference) : List (Option Text) :=
  reference.parts.map some

def problem? (reference : Reference) : Option PartsProblem :=
  reference.kind.problem? reference.presentParts

def itemId? (reference : Reference) : Option ItemId :=
  reference.kind.itemId? reference.presentParts

end Reference
end IndicatorFormula
