/-! # Blank characters

Blank characters are those with the Unicode property White_Space. Values and connectives are
trimmed of them at both ends; a calendar field may have them in front. -/

namespace RuleFilter.Text

/-- The property White_Space: the five controls from tab to carriage return, the space, and the
separators outside ASCII. A zero-width space and a byte-order mark are not blank. -/
def isBlank (c : Char) : Bool :=
  let n := c.toNat
  (0x09 ≤ n && n ≤ 0x0D) || n == 0x20 || n == 0x85 || n == 0xA0 || n == 0x1680 ||
    (0x2000 ≤ n && n ≤ 0x200A) || n == 0x2028 || n == 0x2029 || n == 0x202F || n == 0x205F ||
    n == 0x3000

/-- The text without the blanks in front. -/
def trimLeft (cs : List Char) : List Char :=
  cs.dropWhile isBlank

/-- The text without the blanks at the end. -/
def trimRight (cs : List Char) : List Char :=
  (cs.reverse.dropWhile isBlank).reverse

/-- The text without the blanks at either end. -/
def trim (cs : List Char) : List Char :=
  trimRight (trimLeft cs)

/-- The string without the blanks at either end. -/
def trimmed (s : String) : String :=
  String.ofList (trim s.toList)

/-- The letters A to Z made small; every other character stays. -/
def lowercase (s : String) : String :=
  String.ofList (s.toList.map Char.toLower)

end RuleFilter.Text
