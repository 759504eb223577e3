import RuleFilter.Argument.Basic
import RuleFilter.Json.Printer

/-! # Errors

Why a payload is refused, and how that is worded. A rule that is merely malformed stops
nothing; it is skipped. -/

namespace RuleFilter

/-- What a value was expected to be. -/
inductive Expectation where
  | ofType (type : ValueType)
  /-- A text to search for. -/
  | searchText
  deriving DecidableEq

/-- The wording of an expectation. -/
def Expectation.describe : Expectation → String
  | .ofType type => type.describe
  | .searchText => "text"

/-- Why a payload is refused. -/
inductive CompileError where
  | malformedPayload
  | fieldNotListed (field : String)
  | fieldNotPath (field : String)
  | unknownOperator (field operator : String)
  | arityMismatch (field operator : String) (expected : Arity) (found : Shape)
  | unfitValue (field : String) (expected : Expectation) (value : Json)
  | unknownCondition (text : String)

/-- The wording of an error; the wording of a decoder's complaint is not part of it. -/
def CompileError.message : CompileError → String
  | .malformedPayload => "Failed to decode rule payload as JSON"
  | .fieldNotListed field => "Field (" ++ field ++ ") does not exist in fields list"
  | .fieldNotPath field => "Field (" ++ field ++ ") is not a valid identifier"
  | .unknownOperator field operator =>
    "Unknown operator '" ++ operator ++ "' for field '" ++ field ++ "'"
  | .arityMismatch field operator expected found =>
    "Field (" ++ field ++ ") with operator '" ++ operator ++ "' expects " ++ expected.describe ++
      ", got " ++ found.describe
  | .unfitValue field expected value =>
    "Field (" ++ field ++ ") value " ++ value.text ++ " is not a valid " ++ expected.describe
  | .unknownCondition text => "Condition can only be one of: 'and', 'or' (got '" ++ text ++ "')"

end RuleFilter
