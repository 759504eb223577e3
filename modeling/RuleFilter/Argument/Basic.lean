import RuleFilter.Value
import RuleFilter.Operator.Basic
import RuleFilter.Text.Blank

/-! # Arguments

An argument is the value of a rule in the form that its operator takes, each value converted to the
declared type of the rule. -/

namespace RuleFilter

/-- What an operator compares a field with. -/
inductive Argument where
  /-- Nothing, for a null check. -/
  | null
  /-- The empty text. -/
  | blank
  | single (value : Value)
  | list (values : List Value)
  deriving DecidableEq

/-! ### Types -/

/-- The types that rules may declare; `scalar` stands for all others, and for any type when values
are not converted. -/
inductive ValueType where
  | text
  | integer
  | double
  | boolean
  | date
  | time
  | datetime
  | scalar
  deriving DecidableEq

namespace ValueType

/-- The type of this name, in any letter case. -/
def ofName (name : String) : ValueType :=
  let word := Text.lowercase name
  if word = "string" then .text
  else if word = "integer" then .integer
  else if word = "double" then .double
  else if word = "boolean" then .boolean
  else if word = "date" then .date
  else if word = "time" then .time
  else if word = "datetime" then .datetime
  else .scalar

/-- The wording of a type in errors. -/
def describe : ValueType → String
  | .text => "string"
  | .integer => "integer"
  | .double => "double"
  | .boolean => "boolean"
  | .date => "date (YYYY-MM-DD)"
  | .time => "time (HH:MM[:SS])"
  | .datetime => "datetime"
  | .scalar => "scalar"

end ValueType

/-! ### Shapes -/

/-- What the value of a rule turned out to be. -/
inductive Shape where
  | null
  | boolean
  | number
  | text
  | array
  | object
  | emptyText
  | single
  | many (count : Nat)
  deriving DecidableEq

/-- The wording of a shape in errors. -/
def Shape.describe : Shape → String
  | .null => "null"
  | .boolean => "a boolean"
  | .number => "a number"
  | .text => "a string"
  | .array => "an array"
  | .object => "an object"
  | .emptyText => "an empty string"
  | .single => "a single value"
  | .many count => toString count ++ " values"

/-- The shape of a document. -/
def Json.shape : Json → Shape
  | .null => .null
  | .bool _ => .boolean
  | .num _ => .number
  | .str _ => .text
  | .arr _ => .array
  | .obj _ => .object

/-- The shape of an argument. -/
def Argument.shape : Argument → Shape
  | .null => .null
  | .blank => .emptyText
  | .single _ => .single
  | .list values => .many values.length

end RuleFilter
