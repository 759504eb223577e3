import RuleFilter.Binary64.Basic
import RuleFilter.Text.Numeral

/-! # Rounding to binary64

Every positive quotient of naturals has a nearest binary64 number, a tie going to the even
significand; quotients too large for a finite number give infinity. Integers and decimal numerals
are rounded this way. -/

namespace RuleFilter.Binary64

/-- The natural number nearest to `num / den`; a half goes to the even neighbour. -/
def roundedQuotient (num den : Nat) : Nat :=
  let below := num / den
  match compare (2 * (num % den)) den with
  | .lt => below
  | .gt => below + 1
  | .eq => below + below % 2

/-- The exponent of the greatest power of two that is at most `num / den`. -/
def binaryExponent (num den : Nat) : Int :=
  let estimate : Int := (num.log2 : Int) - den.log2
  if den * Nat.pow 2 estimate.toNat ≤ num * Nat.pow 2 (-estimate).toNat then estimate
  else estimate - 1

/-- The magnitude nearest to `num / den`. Counting magnitudes, `2 ^ 52` of them separate two
neighbouring exponents, so a significand that rounds up to the next power of two carries into the
exponent by itself. -/
def nearestMagnitude (num den : Nat) : Nat :=
  if num = 0 then 0
  else
    let scale := max (binaryExponent num den - 52) (-1074)
    let rounded := roundedQuotient (num * Nat.pow 2 (-scale).toNat) (den * Nat.pow 2 scale.toNat)
    min ((scale + 1074).toNat * Nat.pow 2 52 + rounded) infinity

/-- The number nearest to an integer. -/
def ofInt (n : Int) : Binary64 :=
  ofMagnitude (n < 0) (nearestMagnitude n.natAbs 1)

/-- The magnitude nearest to `digits * 10 ^ scale`. Powers of ten beyond the range of the format
are recognised by the scale, without being computed. -/
def decimalMagnitude (digits : List Char) (scale : Int) : Nat :=
  let n := digitsValue digits
  if n = 0 then 0
  else if 310 < scale then infinity
  else if digits.length + scale < -330 then 0
  else nearestMagnitude (n * Nat.pow 10 scale.toNat) (Nat.pow 10 (-scale).toNat)

/-- The number nearest to a decimal numeral with a sign. -/
def ofNumeral (negative : Bool) (n : Numeral) : Binary64 :=
  ofMagnitude negative (decimalMagnitude n.digits n.scale)

end RuleFilter.Binary64
