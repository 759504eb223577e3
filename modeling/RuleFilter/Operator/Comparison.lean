/-! # SQL comparisons

The comparison operators of SQL that a rule can be turned into. -/

namespace RuleFilter

/-- A comparison operator of SQL. -/
inductive Comparison where
  | equal
  | notEqual
  | less
  | lessOrEqual
  | greater
  | greaterOrEqual
  | isIn
  | notIn
  | between
  | notBetween
  | like
  | notLike
  | isNull
  | isNotNull
  deriving DecidableEq

namespace Comparison

/-- The operator as it is written in SQL. -/
def sql : Comparison → String
  | .equal => "="
  | .notEqual => "!="
  | .less => "<"
  | .lessOrEqual => "<="
  | .greater => ">"
  | .greaterOrEqual => ">="
  | .isIn => "IN"
  | .notIn => "NOT IN"
  | .between => "BETWEEN"
  | .notBetween => "NOT BETWEEN"
  | .like => "LIKE"
  | .notLike => "NOT LIKE"
  | .isNull => "IS NULL"
  | .isNotNull => "IS NOT NULL"

/-- The name of the operator in documents. -/
def label : Comparison → String
  | .equal => "Equal"
  | .notEqual => "NotEqual"
  | .less => "LessThan"
  | .lessOrEqual => "LessOrEqual"
  | .greater => "GreaterThan"
  | .greaterOrEqual => "GreaterOrEqual"
  | .isIn => "In"
  | .notIn => "NotIn"
  | .between => "Between"
  | .notBetween => "NotBetween"
  | .like => "Like"
  | .notLike => "NotLike"
  | .isNull => "IsNull"
  | .isNotNull => "IsNotNull"

/-- All operators. -/
def all : List Comparison :=
  [.equal, .notEqual, .less, .lessOrEqual, .greater, .greaterOrEqual, .isIn, .notIn, .between,
    .notBetween, .like, .notLike, .isNull, .isNotNull]

/-- The comparison takes a lower and an upper bound. -/
def isRange : Comparison → Bool
  | .between | .notBetween => true
  | _ => false

/-- The comparison takes several values. -/
def takesSeveral : Comparison → Bool
  | .isIn | .notIn | .between | .notBetween => true
  | _ => false

/-- The comparison tests for null and has nothing on its right. -/
def isNullCheck : Comparison → Bool
  | .isNull | .isNotNull => true
  | _ => false

end Comparison

end RuleFilter
