import RuleFilter.Json.Basic
import RuleFilter.Binary64.Arithmetic

/-! # Reading the numbers of documents

A numeral that is no integer of 64 bits is read in two steps, each of which rounds: its leading
digits, as many as fit 64 bits, make a double, and a power of ten scales it. So the double is not
always the one that is nearest to the numeral, and some numerals at the upper end of the range are
refused. -/

namespace RuleFilter

namespace Numeral

/-- The numerals of documents: digits on both sides of a point, and no zero in front of other
digits. -/
def isStrict (n : Numeral) : Bool :=
  !n.whole.isEmpty && (n.whole.length == 1 || n.whole.head? != some '0') &&
    n.fraction != some []

/-- Puts digits behind a significand up to the first one with which it does not fit 64 bits: the
significand, and the digits that are left. -/
def appendDigits (significand : Nat) : List Char → Nat × List Char
  | [] => (significand, [])
  | c :: rest =>
    let longer := significand * 10 + digitsValue [c]
    if longer ≤ 0xFFFFFFFFFFFFFFFF then appendDigits longer rest else (significand, c :: rest)

/-- The significand and the power of ten that scales it. Digits of the whole part that are left over
count for the power; those of the fraction do not count at all. -/
def leadingDigits (n : Numeral) : Nat × Int :=
  let fraction := n.fraction.getD []
  let (whole, uncounted) := appendDigits 0 n.whole
  let (significand, ignored) := appendDigits whole fraction
  (significand, n.exponent.getD 0 + uncounted.length - (fraction.length - ignored.length : Int))

end Numeral

namespace Binary64

/-- The greatest power of ten that is a number. -/
def maxPower : Nat := 308

/-- Divides a number by the greatest power of ten so many times, and then by another power. What has
become zero stays zero. -/
def scaleDown (power : Nat) : Nat → Binary64 → Binary64
  | 0, x => x.quotient (tenTo power)
  | count + 1, x =>
    if x.magnitude = 0 then x else scaleDown power count (x.quotient (tenTo maxPower))

/-- The number nearest to a significand, scaled by a power of ten. It is refused if the power or the
product is too large. -/
def scaled? (significand : Nat) (power : Int) : Option Binary64 :=
  let x := ofInt significand
  if significand = 0 then some x
  else if maxPower < power then none
  else if 0 ≤ power then
    let product := x.product (tenTo power.toNat)
    if product.isFinite then some product else none
  else
    let further := (power.natAbs - 1) / maxPower
    some (scaleDown (power.natAbs - further * maxPower) further x)

end Binary64

namespace Number

/-- Integers that fit 64 bits, signed or unsigned, are kept as integers. -/
def isIntegral (n : Int) : Bool :=
  -0x8000000000000000 ≤ n && n ≤ 0xFFFFFFFFFFFFFFFF

/-- The number of a numeral. Minus zero is a double. -/
def ofNumeral? (negative : Bool) (n : Numeral) : Option Number :=
  let value := signed negative (digitsValue n.whole)
  if n.isWhole && isIntegral value && !(negative && value == 0) then some (.int value)
  else
    let (significand, power) := n.leadingDigits
    (Binary64.scaled? significand power).map fun x =>
      .float (Binary64.ofMagnitude negative x.magnitude)

/-- Reads a strict numeral with an optional minus sign. -/
def read? (cs : List Char) : Option Number :=
  let negative := cs.head? == some '-'
  ((Numeral.read? (if negative then cs.drop 1 else cs)).filter Numeral.isStrict).bind
    (ofNumeral? negative)

end Number

end RuleFilter
