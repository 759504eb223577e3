import RuleFilter.Binary64.Shortest

/-! # Written binary64 numbers

The shortest digits of a number are laid out positionally (`0.00125`) or with an exponent
(`1.25e-3`). A `Layout` states the decisions of one format. -/

namespace RuleFilter.Binary64

/-- The decisions of a number format. -/
structure Layout where
  /-- Which of two equally near decimals is written. -/
  tie : Tie
  /-- Whether a number whose first digit stands for this power of ten is written positionally. -/
  positional : Int → Bool
  /-- What follows the digits of a positional whole number. -/
  wholeMark : List Char

/-- Digits without zeros at the end, and the position of the decimal point among them. -/
structure Digits where
  digits : List Char
  point : Int

/-- The digits of a decimal other than zero. -/
def Decimal.toDigits (d : Decimal) : Digits :=
  let digits := Nat.toDigits 10 d.digits
  ⟨(digits.reverse.dropWhile (· == '0')).reverse, digits.length + d.scale⟩

/-- The digits of a finite number. -/
def shortestDigits (tie : Tie) (x : Binary64) : Digits :=
  if x.significand = 0 then ⟨['0'], 1⟩ else (x.shortestDecimal tie).toDigits

namespace Digits

/-- Positional notation, with zeros where the point lies outside the digits. -/
def positional (d : Digits) (wholeMark : List Char) : List Char :=
  let size : Int := d.digits.length
  if d.point ≤ 0 then
    '0' :: '.' :: List.replicate (-d.point).toNat '0' ++ d.digits
  else if size ≤ d.point then
    d.digits ++ List.replicate (d.point - size).toNat '0' ++ wholeMark
  else
    d.digits.take d.point.toNat ++ '.' :: d.digits.drop d.point.toNat

/-- One digit, the others after the point, and the power of ten with its sign. -/
def scientific (d : Digits) : List Char :=
  let power := d.point - 1
  let rest := d.digits.drop 1
  d.digits.take 1 ++ (if rest.isEmpty then [] else '.' :: rest) ++
    'e' :: (if power < 0 then '-' else '+') :: Nat.toDigits 10 power.natAbs

end Digits

/-- The text of a number. -/
def Layout.write (layout : Layout) (x : Binary64) : List Char :=
  if x.isNaN then ['N', 'a', 'N']
  else
    let d := x.shortestDigits layout.tie
    (if x.isNegative then ['-'] else []) ++
      if !x.isFinite then ['i', 'n', 'f']
      else if layout.positional (d.point - 1) then d.positional layout.wholeMark
      else d.scientific

/-- Plain text never has an exponent and marks whole numbers by nothing; a tie goes up. -/
def plain : Layout where
  tie := .up
  positional := fun _ => true
  wholeMark := []

/-- Documents have a point or an exponent in every number, and an exponent outside the powers
from -5 to 15; a tie goes to the even digit. -/
def document : Layout where
  tie := .toEven
  positional := fun power => -5 ≤ power && power < 16
  wholeMark := ['.', '0']

end RuleFilter.Binary64
