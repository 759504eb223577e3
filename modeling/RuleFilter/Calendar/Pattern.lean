import RuleFilter.Text.Blank
import RuleFilter.Text.Numeral

/-! # Calendar patterns

A pattern is a list of fields that is read against the front of a text. Number fields yield their
numbers in order; the other fields only have to match. -/

namespace RuleFilter

/-- A field of a calendar pattern. -/
inductive PatternField where
  /-- One or two digits, with blanks allowed in front. -/
  | short
  /-- Up to four digits, or any number of them after a sign, with blanks allowed in front. -/
  | year
  /-- Exactly this many digits. -/
  | exactly (count : Nat)
  /-- One of these characters. -/
  | oneOf (chars : List Char)
  /-- Blanks, or nothing. -/
  | gap

/-- One or more digits at the front, at most `limit` of them, and what follows. -/
def takeDigits? (limit : Nat) (cs : List Char) : Option (Nat × List Char) :=
  let digits := (cs.take limit).takeWhile Char.isDigit
  (readDigits? digits).map fun n => (n, cs.drop digits.length)

namespace PatternField

/-- A year with blanks skipped. -/
def readYear? : List Char → Option (Int × List Char)
  | '-' :: rest => (takeDigits? rest.length rest).map fun (n, rest) => (-n, rest)
  | '+' :: rest => (takeDigits? rest.length rest).map fun (n, rest) => (n, rest)
  | rest => (takeDigits? 4 rest).map fun (n, rest) => (n, rest)

/-- The numbers a field yields, and what follows it. -/
def read? : PatternField → List Char → Option (List Int × List Char)
  | .short, cs => (takeDigits? 2 (Text.trimLeft cs)).map fun (n, rest) => ([(n : Int)], rest)
  | .year, cs => (readYear? (Text.trimLeft cs)).map fun (n, rest) => ([n], rest)
  | .exactly count, cs =>
    let digits := cs.take count
    if digits.length = count then
      (readDigits? digits).map fun n => ([(n : Int)], cs.drop count)
    else none
  | .oneOf _, [] => none
  | .oneOf chars, c :: rest => if chars.contains c then some ([], rest) else none
  | .gap, cs => some ([], Text.trimLeft cs)

end PatternField

/-- The numbers in front of a text that match a pattern, and what follows them. -/
def readPattern? : List PatternField → List Char → Option (List Int × List Char)
  | [], cs => some ([], cs)
  | field :: fields, cs => do
    let (first, rest) ← field.read? cs
    let (others, rest) ← readPattern? fields rest
    return (first ++ others, rest)

/-- The numbers of a text that a pattern matches to the end. -/
def matchPattern? (pattern : List PatternField) (cs : List Char) : Option (List Int) :=
  match readPattern? pattern cs with
  | some (numbers, []) => some numbers
  | _ => none

end RuleFilter
