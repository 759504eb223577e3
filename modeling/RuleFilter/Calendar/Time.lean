import RuleFilter.Calendar.Date

/-! # Times of day and timestamps

A time of day counts hours, minutes, seconds and nanoseconds; second 60 is a leap second, which any
minute may have. A timestamp is a date with a time of day. The clock text leaves the fraction of the
second out; the full text writes it with three, six or nine digits. -/

namespace RuleFilter

/-- The time exists on the clock. -/
def IsClockTime (hour minute second nanosecond : Nat) : Prop :=
  hour ≤ 23 ∧ minute ≤ 59 ∧ second ≤ 60 ∧ nanosecond ≤ 999999999

instance (hour minute second nanosecond : Nat) :
    Decidable (IsClockTime hour minute second nanosecond) :=
  inferInstanceAs (Decidable (_ ∧ _))

/-- A time of day. -/
structure Time where
  hour : Nat
  minute : Nat
  second : Nat
  nanosecond : Nat
  exists_time : IsClockTime hour minute second nanosecond
  deriving DecidableEq

namespace Time

/-- The time with these parts, if there is one. -/
def ofHMSN? (hour minute second nanosecond : Nat) : Option Time :=
  if h : IsClockTime hour minute second nanosecond then some ⟨hour, minute, second, nanosecond, h⟩
  else none

/-- The text `HH:MM:SS`. -/
def clockText (t : Time) : List Char :=
  paddedNat 2 t.hour ++ ':' :: paddedNat 2 t.minute ++ ':' :: paddedNat 2 t.second

/-- The fraction of a second: nothing, or the shortest of three, six and nine digits. -/
def fractionText (nanosecond : Nat) : List Char :=
  if nanosecond = 0 then []
  else if nanosecond % 1000000 = 0 then '.' :: paddedNat 3 (nanosecond / 1000000)
  else if nanosecond % 1000 = 0 then '.' :: paddedNat 6 (nanosecond / 1000)
  else '.' :: paddedNat 9 nanosecond

/-- The clock text and the fraction of the second. -/
def fullText (t : Time) : List Char :=
  t.clockText ++ fractionText t.nanosecond

end Time

/-- A date with a time of day. -/
structure Timestamp where
  date : Date
  time : Time
  deriving DecidableEq

namespace Timestamp

/-- The text `YYYY-MM-DD HH:MM:SS`. -/
def clockText (t : Timestamp) : List Char :=
  t.date.text ++ ' ' :: t.time.clockText

/-- The date, `T`, and the time with its fraction. -/
def fullText (t : Timestamp) : List Char :=
  t.date.text ++ 'T' :: t.time.fullText

/-- The timestamp this many minutes later, for less than a day in either direction. Seconds do not
change, so a leap second stays one. -/
def addMinutes? (t : Timestamp) (minutes : Int) : Option Timestamp := do
  let total : Int := t.time.hour * 60 + t.time.minute + minutes
  let date ← if total < 0 then t.date.previous? else if 1440 ≤ total then t.date.next? else t.date
  let ofDay := (total % 1440).toNat
  let time ← Time.ofHMSN? (ofDay / 60) (ofDay % 60) t.time.second t.time.nanosecond
  return ⟨date, time⟩

end Timestamp

end RuleFilter
