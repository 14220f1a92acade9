import IndicatorFormula.Calendar.Date

/-! Periods of days, with both ends included. -/

set_option autoImplicit false
namespace IndicatorFormula

-- Sums begin with the core library's zero, also where there are others.
attribute [local instance (high)] Zero.ofOfNat0

inductive PeriodError where
  | date (error : DateError)
  | reversed (first last : Date)
  deriving DecidableEq, Repr

def PeriodError.message : PeriodError → String
  | .date found => found.message
  | .reversed first last =>
    "Period start " ++ .ofList first.text ++ " is after end " ++ .ofList last.text

structure Period where
  first : Date
  last : Date
  ordered : first.ordinal ≤ last.ordinal
  deriving DecidableEq, Repr

namespace Period

def ofDates (first last : Date) : Except PeriodError Period :=
  if ordered : first.ordinal ≤ last.ordinal then .ok ⟨first, last, ordered⟩
    else .error (.reversed first last)

def ofTexts (first last : Text) : Except PeriodError Period := do
  let firstDate ← (Date.ofText first).mapError .date
  let lastDate ← (Date.ofText last).mapError .date
  ofDates firstDate lastDate

def days (period : Period) : Nat :=
  period.last.ordinal - period.first.ordinal + 1

/-- How many days periods have together. Days in several periods count for each. -/
def totalDays (periods : List Period) : Nat :=
  (periods.map days).sum

def text (period : Period) : Text :=
  "Period(".toList ++ period.first.text ++ [',', ' '] ++ period.last.text ++ [')']

theorem days_pos (period : Period) : 0 < period.days :=
  Nat.succ_pos _

end Period
end IndicatorFormula
