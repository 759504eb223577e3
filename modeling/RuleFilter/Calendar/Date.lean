import RuleFilter.Text.Numeral

/-! # Calendar dates

Days of the proleptic Gregorian calendar with a year from -262143 to 262142, year 0 included. A
`Date` carries the proof that its day exists. -/

namespace RuleFilter

/-- Every fourth year, but of the full centuries only every fourth. -/
def isLeapYear (year : Int) : Bool :=
  year % 4 == 0 && (year % 100 != 0 || year % 400 == 0)

/-- The length of a month; months are counted from 1. -/
def daysInMonth (year : Int) (month : Nat) : Nat :=
  if month = 2 then (if isLeapYear year then 29 else 28)
  else if month = 4 ∨ month = 6 ∨ month = 9 ∨ month = 11 then 30
  else 31

/-- The day exists in the calendar. -/
def IsCalendarDay (year : Int) (month day : Nat) : Prop :=
  (-262143 ≤ year ∧ year ≤ 262142) ∧ (1 ≤ month ∧ month ≤ 12) ∧
    1 ≤ day ∧ day ≤ daysInMonth year month

instance (year : Int) (month day : Nat) : Decidable (IsCalendarDay year month day) :=
  inferInstanceAs (Decidable (_ ∧ _))

/-- A day of the calendar. -/
structure Date where
  year : Int
  month : Nat
  day : Nat
  exists_day : IsCalendarDay year month day
  deriving DecidableEq

namespace Date

/-- The date of this year, month and day, if there is one. -/
def ofYMD? (year : Int) (month day : Nat) : Option Date :=
  if h : IsCalendarDay year month day then some ⟨year, month, day, h⟩ else none

/-- The day after, except at the end of the calendar. -/
def next? (d : Date) : Option Date :=
  ofYMD? d.year d.month (d.day + 1) <|> ofYMD? d.year (d.month + 1) 1 <|> ofYMD? (d.year + 1) 1 1

/-- The day before, except at the start of the calendar. -/
def previous? (d : Date) : Option Date :=
  ofYMD? d.year d.month (d.day - 1) <|>
    ofYMD? d.year (d.month - 1) (daysInMonth d.year (d.month - 1)) <|>
    ofYMD? (d.year - 1) 12 31

/-- A year has at least four digits, and a sign unless it has exactly four and is not negative. -/
def yearText (year : Int) : List Char :=
  let digits := paddedNat 4 year.natAbs
  if year < 0 then '-' :: digits else if 9999 < year then '+' :: digits else digits

/-- The text `YYYY-MM-DD`. -/
def text (d : Date) : List Char :=
  yearText d.year ++ '-' :: paddedNat 2 d.month ++ '-' :: paddedNat 2 d.day

end Date

end RuleFilter
