import RuleFilter.Filter.Basic

/-! # Filters with named placeholders

The text of a filter whose placeholders are written by name, as `:p0`. Fields stand as they are.
Every group inside another one is bracketed. -/

namespace RuleFilter

/-- A placeholder written by name. -/
def namedPlaceholder (name : String) : List Char :=
  ':' :: name.toList

/-- The right-hand side of a comparison, with the space in front of it. -/
def Operand.write : Operand String → List Char
  | .none => []
  | .blank => [' ', '\'', '\'']
  | .single name => ' ' :: namedPlaceholder name
  | .list names =>
    ' ' :: '(' :: List.intercalate [',', ' '] (names.map namedPlaceholder) ++ [')']
  | .range low high => ' ' :: namedPlaceholder low ++ " AND ".toList ++ namedPlaceholder high

/-- Field, operator and right-hand side. -/
def Predicate.write (p : Predicate String) : List Char :=
  p.field.toList ++ ' ' :: p.comparison.sql.toList ++ p.operand.write

/-- The text of a predicate as a string. -/
def Predicate.text (p : Predicate String) : String :=
  String.ofList p.write

/-- A connective between two parts. -/
def Connective.separator (c : Connective) : List Char :=
  ' ' :: c.keyword.toList ++ [' ']

namespace Filter

/-- The text between round brackets. -/
def bracketed (cs : List Char) : List Char :=
  '(' :: cs ++ [')']

mutual

/-- The text of a filter. -/
def write : Filter String → List Char
  | .leaf p => p.write
  | .group connective parts => List.intercalate connective.separator (writeParts parts)

/-- The texts of the parts of a group. -/
def writeParts : List (Filter String) → List (List Char)
  | [] => []
  | part :: rest => (if part.isGroup then bracketed part.write else part.write) :: writeParts rest

end

/-- The text of a filter as a string. -/
def text (f : Filter String) : String :=
  String.ofList f.write

end Filter

end RuleFilter
