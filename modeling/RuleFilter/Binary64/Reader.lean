import RuleFilter.Binary64.Rounding
import RuleFilter.Text.Blank

/-! # Reading binary64 numbers

The text of a double is a numeral with an optional sign, at least one digit before or after the
point, or one of the words `inf`, `infinity` and `nan` in any letter case. Numerals beyond the
range of the format give an infinity. -/

namespace RuleFilter.Binary64

/-- The word or numeral after the sign. -/
def readUnsigned? (negative : Bool) (cs : List Char) : Option Binary64 :=
  let word := String.ofList (cs.map Char.toLower)
  if word = "inf" ∨ word = "infinity" then some (ofMagnitude negative infinity)
  else if word = "nan" then some nan
  else (Numeral.read? cs).bind fun n =>
    if n.digits.isEmpty then none else some (ofNumeral negative n)

/-- Reads a text that is a double and nothing else. -/
def read? (cs : List Char) : Option Binary64 :=
  let (negative, rest) := splitSign cs
  readUnsigned? negative rest

end RuleFilter.Binary64
