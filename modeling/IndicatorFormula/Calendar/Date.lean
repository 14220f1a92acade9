import IndicatorFormula.Text.Quoted

/-! Calendar dates, from the year 1 to the year 9999.

Dates are read as year, month and day or as year, week and day of the week, with hyphens between all
fields or none. Week one of a year is the week with its first Thursday. -/

set_option autoImplicit false
namespace IndicatorFormula

-- Sums begin with the core library's zero, also where there are others.
attribute [local instance (high)] Zero.ofOfNat0

inductive DateError where
  | format (text : Text)
  | year (year : Nat)
  | month
  | day
  deriving DecidableEq, Repr

def DateError.message : DateError → String
  | .format written => "Invalid isoformat string: " ++ .ofList written.quoted
  | .year number => "year " ++ toString number ++ " is out of range"
  | .month => "month must be in 1..12"
  | .day => "day is out of range for month"

def isLeap (year : Nat) : Bool :=
  year % 4 == 0 && (year % 100 != 0 || year % 400 == 0)

def monthLengths (year : Nat) : List Nat :=
  [31, if isLeap year then 29 else 28, 31, 30, 31, 30, 31, 31, 30, 31, 30, 31]

def monthLength (year month : Nat) : Nat :=
  if month = 0 then 0 else (monthLengths year).getD (month - 1) 0

structure Date where
  year : Nat
  month : Nat
  day : Nat
  year_pos : 1 ≤ year
  year_le : year ≤ 9999
  month_pos : 1 ≤ month
  month_le : month ≤ 12
  day_pos : 1 ≤ day
  day_le : day ≤ monthLength year month
  deriving DecidableEq, Repr

namespace Date

/-- The date with the given fields. The year is checked first and the day last. -/
def ofFields (year month day : Nat) : Except DateError Date :=
  if yearInRange : 1 ≤ year ∧ year ≤ 9999 then
    if monthInRange : 1 ≤ month ∧ month ≤ 12 then
      if dayInRange : 1 ≤ day ∧ day ≤ monthLength year month then
        .ok ⟨year, month, day, yearInRange.1, yearInRange.2, monthInRange.1, monthInRange.2,
          dayInRange.1, dayInRange.2⟩
      else .error .day
    else .error .month
  else .error (.year year)

def daysBeforeYear (year : Nat) : Nat :=
  365 * (year - 1) + (year - 1) / 4 - (year - 1) / 100 + (year - 1) / 400

/-- The number of a date, counted from the first day of the year 1, which has number one. -/
def ordinal (date : Date) : Nat :=
  daysBeforeYear date.year + ((monthLengths date.year).take (date.month - 1)).sum + date.day

def padded (width n : Nat) : Text :=
  let digits := Text.ofNat n
  List.replicate (width - digits.length) '0' ++ digits

def text (date : Date) : Text :=
  Text.join ['-'] [padded 4 date.year, padded 2 date.month, padded 2 date.day]

/-- The day of the week that a year begins with, counted from Monday as zero. -/
def firstWeekday (year : Nat) : Nat :=
  daysBeforeYear year % 7

/-- The number of weeks of a year: 53 if it begins with a Thursday or, as a leap year, with a
Wednesday. -/
def weeks (year : Nat) : Nat :=
  if firstWeekday year = 3 || (firstWeekday year = 2 && isLeap year) then 53 else 52

/-- The date that lies a number of days behind the first of a month, where `lengths` are the lengths
of that month and those that follow it in the year. -/
def ofDayOfYear (year month rest : Nat) : List Nat → Except DateError Date
  | [] => ofFields (year + 1) 1 (rest + 1)
  | length :: lengths =>
    if rest < length then ofFields year month (rest + 1)
    else ofDayOfYear year (month + 1) (rest - length) lengths

/-- The date of a day of a week. The week may reach into the year before or behind; those of the
year 0 do not reach any month. -/
def ofWeek (year week weekday : Nat) : Except DateError Date :=
  if year = 0 then .error .month
  else
    let first := firstWeekday year
    let days := 7 * (week - 1) + (weekday - 1) + if first ≤ 3 then 0 else 7
    if first ≤ days then ofDayOfYear year 1 (days - first) (monthLengths year)
    else ofFields (year - 1) 12 (32 + days - first)

def readDigits? (count : Nat) (text : Text) : Option (Nat × Text) :=
  let digits := text.take count
  if digits.length = count && digits.all Char.isDigit then
    some (digits.foldl (fun value c => 10 * value + (c.toNat - '0'.toNat)) 0, text.drop count)
  else none

/-- What a hyphen comes in front of, if fields are separated; otherwise the text itself. -/
def separated? (hyphens : Bool) (text : Text) : Option Text :=
  if hyphens then Text.after? ['-'] text else some text

/-- The week and the day of the week that follow the mark of a week. Without a day the week
begins. -/
def readWeek? (hyphens : Bool) (text : Text) : Option (Nat × Nat) := do
  let (week, rest) ← readDigits? 2 text
  if rest.isEmpty then return (week, 1)
  let (weekday, _) ← readDigits? 1 (← separated? hyphens rest)
  return (week, weekday)

def readMonthAndDay? (hyphens : Bool) (text : Text) : Option (Nat × Nat) := do
  let (month, rest) ← readDigits? 2 text
  let (day, _) ← readDigits? 2 (← separated? hyphens rest)
  return (month, day)

/-- Reads a date. The text has seven, eight or ten bytes; of one with ten bytes, those behind the
last field are not looked at. -/
def ofText (text : Text) : Except DateError Date := do
  let refused := DateError.format text
  let size := (String.ofList text).utf8ByteSize
  if size ≠ 7 && size ≠ 8 && size ≠ 10 then throw refused
  let some (year, rest) := readDigits? 4 text | throw refused
  let hyphens := rest.head? = some '-'
  match if hyphens then rest.drop 1 else rest with
  | 'W' :: fields =>
    let some (week, weekday) := readWeek? hyphens fields | throw refused
    if week < 1 || weeks year < week || weekday < 1 || 7 < weekday then throw refused
    ofWeek year week weekday
  | fields =>
    let some (month, day) := readMonthAndDay? hyphens fields | throw refused
    ofFields year month day

end Date
end IndicatorFormula
