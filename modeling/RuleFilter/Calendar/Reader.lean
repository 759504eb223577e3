import RuleFilter.Calendar.Time
import RuleFilter.Calendar.Pattern

/-! # Reading dates, times and timestamps

Dates are read as year, month and day; times with or without seconds; timestamps in three local
forms, or in the Internet form with an offset, which is converted to universal time. Digits beyond
the nanosecond are dropped. -/

namespace RuleFilter

namespace Date

/-- Year, month and day, joined by hyphens. -/
def pattern : List PatternField :=
  [.year, .oneOf ['-'], .short, .oneOf ['-'], .short]

/-- Reads `YYYY-MM-DD`. -/
def read? (cs : List Char) : Option Date :=
  match matchPattern? pattern cs with
  | some [year, month, day] => ofYMD? year month.toNat day.toNat
  | _ => none

end Date

namespace Time

/-- Hour and minute, joined by a colon. -/
def minutePattern : List PatternField :=
  [.short, .oneOf [':'], .short]

/-- Hour, minute and second, joined by colons. -/
def secondPattern : List PatternField :=
  minutePattern ++ [.oneOf [':'], .short]

/-- The time that the numbers of a pattern stand for. -/
def ofNumbers? : List Int → Option Time
  | [hour, minute] => ofHMSN? hour.toNat minute.toNat 0 0
  | [hour, minute, second] => ofHMSN? hour.toNat minute.toNat second.toNat 0
  | _ => none

/-- Reads `HH:MM:SS` or `HH:MM`. -/
def read? (cs : List Char) : Option Time :=
  [secondPattern, minutePattern].findSome? fun pattern =>
    (matchPattern? pattern cs).bind ofNumbers?

end Time

namespace Timestamp

/-- The local forms: a date, a separator, and a time with or without seconds. -/
def localPatterns : List (List PatternField) :=
  [ Date.pattern ++ [.gap] ++ Time.secondPattern,
    Date.pattern ++ [.oneOf ['T']] ++ Time.secondPattern,
    Date.pattern ++ [.gap] ++ Time.minutePattern ]

/-- The timestamp that the numbers of a pattern stand for. -/
def ofNumbers? : List Int → Option Timestamp
  | year :: month :: day :: clock => do
    return ⟨← Date.ofYMD? year month.toNat day.toNat, ← Time.ofNumbers? clock⟩
  | _ => none

/-! ### The Internet form -/

/-- Date and time in front of the Internet form, every field in full width. -/
def internetPattern : List PatternField :=
  [ .exactly 4, .oneOf ['-'], .exactly 2, .oneOf ['-'], .exactly 2, .oneOf ['T', 't', ' '],
    .exactly 2, .oneOf [':'], .exactly 2, .oneOf [':'], .exactly 2 ]

/-- The nanoseconds of an optional fraction, and what follows it. -/
def readFraction? : List Char → Option (Nat × List Char)
  | '.' :: rest =>
    let digits := rest.takeWhile Char.isDigit
    if digits.isEmpty then none
    else
      let nine := (digits ++ List.replicate 9 '0').take 9
      some (digitsValue nine, rest.drop digits.length)
  | rest => some (0, rest)

/-- The offset from universal time in minutes: `Z`, or a sign, hours and minutes. The minus sign
may also be the typographical one. -/
def readOffset? : List Char → Option Int
  | ['Z'] | ['z'] => some 0
  | sign :: rest => do
    let negative ← if sign == '+' then some false
      else if sign == '-' || sign == '\u2212' then some true else none
    match matchPattern? [.exactly 2, .oneOf [':'], .exactly 2] rest with
    | some [hours, minutes] =>
      if hours ≤ 23 ∧ minutes ≤ 59 then
        some (if negative then -(hours * 60 + minutes) else hours * 60 + minutes)
      else none
    | _ => none
  | [] => none

/-- Reads the Internet form and converts it to universal time. -/
def readInternet? (cs : List Char) : Option Timestamp := do
  let (numbers, rest) ← readPattern? internetPattern cs
  let clock ← ofNumbers? numbers
  let (nanosecond, rest) ← readFraction? rest
  let offset ← readOffset? rest
  let time ← Time.ofHMSN? clock.time.hour clock.time.minute clock.time.second nanosecond
  addMinutes? ⟨clock.date, time⟩ (-offset)

/-- Reads a local form, or else the Internet form. -/
def read? (cs : List Char) : Option Timestamp :=
  (localPatterns.findSome? fun pattern => (matchPattern? pattern cs).bind ofNumbers?) <|>
    readInternet? cs

end Timestamp

end RuleFilter
