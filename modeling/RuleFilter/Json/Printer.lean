import RuleFilter.Json.Basic
import RuleFilter.Binary64.Layout

/-! # Written documents

The compact text has no spaces; the pretty text puts every item and member on a line of its own,
indented by two spaces a level. Quotes, backslashes and control characters are escaped, and nothing
else is. A double that is no real number is written as `null`. -/

namespace RuleFilter

/-- The text of a number in a document. -/
def Number.write : Number → List Char
  | .int n => (toString n).toList
  | .float x => if x.isFinite then Binary64.document.write x else ['n', 'u', 'l', 'l']

namespace Json

/-- How a character is written in a quoted text. -/
def escapeChar (c : Char) : List Char :=
  if c = '"' then ['\\', '"']
  else if c = '\\' then ['\\', '\\']
  else if c = '\x08' then ['\\', 'b']
  else if c = '\x0c' then ['\\', 'f']
  else if c = '\n' then ['\\', 'n']
  else if c = '\r' then ['\\', 'r']
  else if c = '\t' then ['\\', 't']
  else if c.toNat < 0x20 then
    ['\\', 'u', '0', '0', Nat.digitChar (c.toNat / 16), Nat.digitChar (c.toNat % 16)]
  else [c]

/-- A quoted text. -/
def quote (s : String) : List Char :=
  '"' :: s.toList.flatMap escapeChar ++ ['"']

/-- The text of a value that is neither array nor object. -/
def writeScalar : Json → List Char
  | .null => ['n', 'u', 'l', 'l']
  | .bool true => ['t', 'r', 'u', 'e']
  | .bool false => ['f', 'a', 'l', 's', 'e']
  | .num n => n.write
  | .str s => quote s
  | .arr _ | .obj _ => []

/-! ### Compact text -/

mutual

/-- The compact text of a document. -/
def compact : Json → List Char
  | .arr items => '[' :: List.intercalate [','] (compactItems items) ++ [']']
  | .obj members => '{' :: List.intercalate [','] (compactMembers members) ++ ['}']
  | value => value.writeScalar

/-- The compact texts of items. -/
def compactItems : List Json → List (List Char)
  | [] => []
  | item :: rest => item.compact :: compactItems rest

/-- The compact texts of members. -/
def compactMembers : Members → List (List Char)
  | [] => []
  | (key, value) :: rest => (quote key ++ ':' :: value.compact) :: compactMembers rest

end

/-- The compact text as a string. -/
def text (j : Json) : String :=
  String.ofList j.compact

/-! ### Pretty text -/

/-- A line break and the indentation of a level. -/
def lineBreak (level : Nat) : List Char :=
  '\n' :: List.replicate (2 * level) ' '

/-- Lines between brackets, or the brackets alone. -/
def bracketed (opening closing : Char) (level : Nat) (lines : List (List Char)) : List Char :=
  if lines.isEmpty then [opening, closing]
  else
    opening :: lineBreak (level + 1) ++ List.intercalate (',' :: lineBreak (level + 1)) lines ++
      lineBreak level ++ [closing]

mutual

/-- The pretty text of a document that stands at a level. -/
def pretty (level : Nat) : Json → List Char
  | .arr items => bracketed '[' ']' level (prettyItems (level + 1) items)
  | .obj members => bracketed '{' '}' level (prettyMembers (level + 1) members)
  | value => value.writeScalar

/-- The pretty texts of items. -/
def prettyItems (level : Nat) : List Json → List (List Char)
  | [] => []
  | item :: rest => item.pretty level :: prettyItems level rest

/-- The pretty texts of members. -/
def prettyMembers (level : Nat) : Members → List (List Char)
  | [] => []
  | (key, value) :: rest =>
    (quote key ++ ':' :: ' ' :: value.pretty level) :: prettyMembers level rest

end

end Json

end RuleFilter
