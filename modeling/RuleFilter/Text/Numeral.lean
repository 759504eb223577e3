/-! # Decimal numerals

Decimal digits and their value, and the general shape of a decimal numeral: digits, an optional
fraction and an optional exponent. The formats that read numbers (JSON, and the text of an integer
or of a double) restrict this shape each in its own way. -/

namespace RuleFilter

/-- The number that a list of decimal digits denotes. -/
def digitsValue (digits : List Char) : Nat :=
  Nat.ofDigitChars 10 digits 0

/-- The number that a non-empty list of decimal digits denotes. -/
def readDigits? (cs : List Char) : Option Nat :=
  if !cs.isEmpty && cs.all Char.isDigit then some (digitsValue cs) else none

/-- The decimal text of a natural number, with zeros in front to at least `width` digits. -/
def paddedNat (width n : Nat) : List Char :=
  let digits := Nat.toDigits 10 n
  List.replicate (width - digits.length) '0' ++ digits

/-- A sign in front of a text: whether it is a minus, and what follows it. -/
def splitSign : List Char → Bool × List Char
  | '-' :: rest => (true, rest)
  | '+' :: rest => (false, rest)
  | rest => (false, rest)

/-- The integer with the given sign and magnitude. -/
def signed (negative : Bool) (n : Nat) : Int :=
  if negative then -n else n

/-- An unsigned decimal numeral: `whole . fraction e exponent`. The digits before and after the
point may be missing here; a point without digits after it gives an empty fraction. -/
structure Numeral where
  whole : List Char
  fraction : Option (List Char)
  exponent : Option Int

namespace Numeral

/-- The exponent part of a numeral: nothing, or `e` with an optional sign and digits. -/
def readExponent? : List Char → Option (Option Int)
  | [] => some none
  | e :: rest =>
    if e == 'e' || e == 'E' then
      let (negative, digits) := splitSign rest
      (readDigits? digits).map fun n => some (signed negative n)
    else none

/-- Reads a numeral that fills the whole text. -/
def read? (cs : List Char) : Option Numeral :=
  let whole := cs.takeWhile Char.isDigit
  match cs.dropWhile Char.isDigit with
  | '.' :: rest =>
    (readExponent? (rest.dropWhile Char.isDigit)).map fun exponent =>
      ⟨whole, some (rest.takeWhile Char.isDigit), exponent⟩
  | rest => (readExponent? rest).map fun exponent => ⟨whole, none, exponent⟩

/-- All digits of a numeral, the point ignored. -/
def digits (n : Numeral) : List Char :=
  n.whole ++ n.fraction.getD []

/-- The power of ten by which `digits` is scaled. -/
def scale (n : Numeral) : Int :=
  n.exponent.getD 0 - (n.fraction.getD []).length

/-- A numeral of digits alone. -/
def isWhole (n : Numeral) : Bool :=
  n.fraction.isNone && n.exponent.isNone

end Numeral

/-! ### Signed integers -/

/-- Reads an optional sign and decimal digits. -/
def readInt? (cs : List Char) : Option Int :=
  let (negative, digits) := splitSign cs
  (readDigits? digits).map (signed negative)

/-- The 64-bit integer of this value, if there is one. -/
def int64? (n : Int) : Option Int64 :=
  if -0x8000000000000000 ≤ n ∧ n ≤ 0x7FFFFFFFFFFFFFFF then some (Int64.ofInt n) else none

end RuleFilter
