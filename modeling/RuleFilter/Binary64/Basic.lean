/-! # Binary64 numbers

A number of the 64-bit binary interchange format is its bit pattern: a sign bit, eleven exponent
bits and 52 fraction bits. A finite number is `significand * 2 ^ exponent`, up to its sign. All
arithmetic on these numbers is exact arithmetic on naturals, so nothing here rounds except where
`RuleFilter.Binary64.Rounding` says so. -/

namespace RuleFilter

/-- A 64-bit binary floating-point number, given by its bits. -/
structure Binary64 where
  bits : UInt64
  deriving DecidableEq

namespace Binary64

/-- The sign bit; the number zero has two signs. -/
def isNegative (x : Binary64) : Bool :=
  Nat.pow 2 63 ≤ x.bits.toNat

/-- The bits below the sign, which order the numbers of one sign by size. -/
def magnitude (x : Binary64) : Nat :=
  x.bits.toNat % Nat.pow 2 63

/-- The magnitude of the infinities; larger ones belong to no number. -/
def infinity : Nat :=
  0x7FF * Nat.pow 2 52

/-- The number with the given sign and magnitude. -/
def ofMagnitude (negative : Bool) (magnitude : Nat) : Binary64 :=
  ⟨UInt64.ofNat (magnitude + if negative then Nat.pow 2 63 else 0)⟩

/-- The quiet pattern that stands for no number. -/
def nan : Binary64 :=
  ofMagnitude false (infinity + Nat.pow 2 51)

/-- Whether the pattern stands for no number. -/
def isNaN (x : Binary64) : Bool :=
  infinity < x.magnitude

/-- Whether the pattern stands for a real number. -/
def isFinite (x : Binary64) : Bool :=
  x.magnitude < infinity

/-- The exponent bits. -/
def exponentField (x : Binary64) : Nat :=
  x.magnitude / Nat.pow 2 52

/-- The fraction bits. -/
def fractionField (x : Binary64) : Nat :=
  x.magnitude % Nat.pow 2 52

/-- The whole number that `2 ^ exponent` scales; the leading one is implied unless the exponent
bits are all zero. -/
def significand (x : Binary64) : Nat :=
  if x.exponentField = 0 then x.fractionField else Nat.pow 2 52 + x.fractionField

/-- The power of two that scales the significand. -/
def exponent (x : Binary64) : Int :=
  max x.exponentField 1 - 1075

end Binary64

end RuleFilter
