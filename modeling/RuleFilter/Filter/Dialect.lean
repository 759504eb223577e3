import RuleFilter.Identifier
import RuleFilter.Text.Quoted

/-! # SQL dialects

How a dialect quotes the names of columns and writes the placeholders of a prepared statement. -/

namespace RuleFilter

/-- A dialect of SQL. -/
inductive Dialect where
  | postgres
  | mysql
  deriving DecidableEq

namespace Dialect

/-- The name of the database. -/
def name : Dialect → String
  | .postgres => "PostgreSQL"
  | .mysql => "MySQL"

/-- The mark around the names of columns. -/
def quoteMark : Dialect → Char
  | .postgres => '"'
  | .mysql => '\x60'

/-- The placeholder of the parameter at a position, counted from zero. -/
def placeholder : Dialect → Nat → List Char
  | .postgres, index => '$' :: Nat.toDigits 10 (index + 1)
  | .mysql, _ => ['?']

/-- A name in quotes. -/
def quoteName (d : Dialect) (name : List Char) : List Char :=
  Text.quoted d.quoteMark name

/-- A dotted path with each of its segments in quotes. -/
def quotePath (d : Dialect) (path : String) : List Char :=
  List.intercalate ['.'] ((Identifier.segments path).map d.quoteName)

end Dialect

end RuleFilter
