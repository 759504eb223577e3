import RuleFilter.Rule.Node
import RuleFilter.Operator.Table

/-! # Rules

A leaf is a rule if it has all of its keys, the names among them texts, and its operator is known.
A leaf that is no rule is skipped, for a reason that the log shows. -/

namespace RuleFilter

/-- The keys of a rule. -/
inductive RuleKey where
  | id
  | field
  | type
  | input
  | operator
  | value
  deriving DecidableEq

/-- The key as it is written. -/
def RuleKey.name : RuleKey → String
  | .id => "id"
  | .field => "field"
  | .type => "type"
  | .input => "input"
  | .operator => "operator"
  | .value => "value"

/-- Why a leaf is no rule. -/
inductive RuleSkip where
  | notAnObject
  | missing (key : RuleKey)
  | notText (key : RuleKey)
  | unknownOperator (name : String)
  deriving DecidableEq

/-- The wording of the reason. -/
def RuleSkip.message : RuleSkip → String
  | .notAnObject => "rule is not a JSON object"
  | .missing key => "rule is missing required key '" ++ key.name ++ "'"
  | .notText key => "rule key '" ++ key.name ++ "' must be a string"
  | .unknownOperator name => "operator '" ++ name ++ "' is not recognized"

/-- A rule: compare a field by an operator with a value of some type. -/
structure Rule where
  id : Json
  field : String
  type : String
  input : String
  operator : String
  value : Json

namespace Rule

/-- The value of a key; null counts as missing. -/
def present (members : Members) (key : RuleKey) : Except RuleSkip Json :=
  match members.lookup key.name with
  | none | some .null => .error (.missing key)
  | some value => .ok value

/-- The text of a key. -/
def textOf (members : Members) (key : RuleKey) : Except RuleSkip String := do
  match ← present members key with
  | .str s => .ok s
  | _ => .error (.notText key)

/-- The rule in the members of an object. The value is the only key that may be null. -/
def ofMembers (operators : OperatorTable) (members : Members) : Except RuleSkip Rule := do
  let id ← present members .id
  let field ← textOf members .field
  let type ← textOf members .type
  let input ← textOf members .input
  let operator ← textOf members .operator
  match members.lookup RuleKey.value.name with
  | none => .error (.missing .value)
  | some value =>
    if operators.contains operator then .ok ⟨id, field, type, input, operator, value⟩
    else .error (.unknownOperator operator)

/-- The rule of a leaf. -/
def ofLeaf (operators : OperatorTable) : Option Members → Except RuleSkip Rule
  | none => .error .notAnObject
  | some members => ofMembers operators members

end Rule

end RuleFilter
