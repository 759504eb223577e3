import RuleFilter.Binary64.Rounding

/-! # Rounded products and quotients

The size of a finite number is a quotient of naturals. The product and the quotient of two finite
numbers are the numbers nearest to the exact ones. Signs are left aside. -/

namespace RuleFilter.Binary64

/-- The significand, scaled by the exponent if that makes it greater. -/
def numerator (x : Binary64) : Nat :=
  x.significand * Nat.pow 2 x.exponent.toNat

/-- The power of two that divides the significand. -/
def denominator (x : Binary64) : Nat :=
  Nat.pow 2 (-x.exponent).toNat

/-- The rounded product of two finite numbers; infinity if it is too large. -/
def product (x y : Binary64) : Binary64 :=
  ofMagnitude false (nearestMagnitude (x.numerator * y.numerator) (x.denominator * y.denominator))

/-- The rounded quotient of two finite numbers, the second one not zero. -/
def quotient (x y : Binary64) : Binary64 :=
  ofMagnitude false (nearestMagnitude (x.numerator * y.denominator) (x.denominator * y.numerator))

/-- The number nearest to a power of ten. -/
def tenTo (power : Nat) : Binary64 :=
  ofMagnitude false (nearestMagnitude (Nat.pow 10 power) 1)

end RuleFilter.Binary64
