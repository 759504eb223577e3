import RuleFilter.Text.Blank

/-! # Connectives

The connective of a group says whether all of its rules have to hold or any of them. -/

namespace RuleFilter

/-- A boolean connective. -/
inductive Connective where
  | and
  | or
  deriving DecidableEq

namespace Connective

/-- The SQL keyword. -/
def keyword : Connective → String
  | .and => "AND"
  | .or => "OR"

/-- Reads a connective in any letter case, with blanks around it. -/
def read? (text : String) : Option Connective :=
  let word := Text.lowercase (Text.trimmed text)
  if word = "and" then some .and else if word = "or" then some .or else none

end Connective

end RuleFilter
