import RuleFilter.Binary64.Basic

/-! # Shortest decimals of binary64 numbers

The reals that round to a number form an interval. Among the decimals in it with the fewest digits
the nearest one is chosen: for one digit, two digits and so on, the two neighbours of the number on
that decimal grid are tested, and the first grid with a hit wins. How a tie between two equally
near decimals falls is a parameter. -/

namespace RuleFilter.Binary64

/-- Which of two equally near decimals is taken. -/
inductive Tie where
  | toEven
  | up

/-- The decimal `digits * 10 ^ scale`. -/
structure Decimal where
  digits : Nat
  scale : Int

/-- The reals that round to a positive number: from `low / den` to `high / den` around the number
itself, `mid / den`, the ends included or not. -/
structure RoundingRange where
  low : Nat
  mid : Nat
  high : Nat
  den : Nat
  closed : Bool

/-- Halfway to both neighbours, with the ends included iff the significand is even. Below a power
of two the neighbours lie twice as close. -/
def roundingRange (x : Binary64) : RoundingRange :=
  let unit := Nat.pow 2 x.exponent.toNat
  let m := 4 * x.significand
  let below := if x.fractionField = 0 ∧ 1 < x.exponentField then 1 else 2
  { low := (m - below) * unit
    mid := m * unit
    high := (m + 2) * unit
    den := 4 * Nat.pow 2 (-x.exponent).toNat
    closed := x.significand % 2 == 0 }

namespace RoundingRange

/-- Whether `digits * 10 ^ scale` rounds to the number. -/
def contains (r : RoundingRange) (digits : Nat) (scale : Int) : Bool :=
  let point := digits * Nat.pow 10 scale.toNat * r.den
  let low := r.low * Nat.pow 10 (-scale).toNat
  let high := r.high * Nat.pow 10 (-scale).toNat
  if r.closed then low ≤ point && point ≤ high else low < point && point < high

/-- The number of digits before the decimal point of `mid / den`; negative for leading zeros after
the point. -/
def pointPosition (r : RoundingRange) : Int :=
  if r.den ≤ r.mid then (Nat.toDigits 10 (r.mid / r.den)).length
  else 1 - (Nat.toDigits 10 ((r.den - 1) / r.mid)).length

/-- The better of the two neighbours of the number on the grid `10 ^ scale`, if one rounds to it. -/
def neighbour? (r : RoundingRange) (tie : Tie) (scale : Int) : Option Decimal :=
  let num := r.mid * Nat.pow 10 (-scale).toNat
  let den := r.den * Nat.pow 10 scale.toNat
  let lower : Decimal := ⟨num / den, scale⟩
  let upper : Decimal := ⟨num / den + 1, scale⟩
  match r.contains lower.digits scale, r.contains upper.digits scale with
  | false, false => none
  | true, false => some lower
  | false, true => some upper
  | true, true =>
    match compare (2 * (num % den)) den, tie with
    | .lt, _ => some lower
    | .gt, _ => some upper
    | .eq, .up => some upper
    | .eq, .toEven => some (if lower.digits % 2 == 0 then lower else upper)

end RoundingRange

/-- The exact value of a finite number, its sign left aside. -/
def exactDecimal (x : Binary64) : Decimal :=
  ⟨x.significand * Nat.pow 2 x.exponent.toNat * Nat.pow 5 (-x.exponent).toNat, min x.exponent 0⟩

/-- The shortest decimal that rounds to a finite number other than zero, its sign left aside.
Seventeen digits are always enough to tell a number from its neighbours. -/
def shortestDecimal (tie : Tie) (x : Binary64) : Decimal :=
  let r := x.roundingRange
  ((List.range 17).findSome? fun (n : Nat) => r.neighbour? tie (r.pointPosition - (n + 1))).getD
    x.exactDecimal

end RuleFilter.Binary64
