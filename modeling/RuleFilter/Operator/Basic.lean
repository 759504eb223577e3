import RuleFilter.Operator.Comparison

/-! # Rule operators

A rule names its operator (`begins_with`, `is_empty`); an `Operator` says which SQL comparison that
is, whether the rule's value is used, and what is written around a text that is searched for. -/

namespace RuleFilter

/-- How many values an operator compares a field with. -/
inductive Arity where
  | none
  | one
  | several
  | two
  deriving DecidableEq

/-- What a rule's value has to hold. -/
def Arity.describe : Arity → String
  | .none => "no value"
  | .one => "a single value"
  | .several => "at least one value"
  | .two => "exactly two values"

/-- What is written before and after a text. -/
structure Affix where
  before : Option String
  after : Option String
  deriving DecidableEq

namespace Affix

/-- No affix at all. -/
def empty : Affix :=
  ⟨none, none⟩

/-- Neither side is given; a side that is given but blank counts as given. -/
def isEmpty (a : Affix) : Bool :=
  a.before.isNone && a.after.isNone

/-- The text with the affix around it. -/
def apply (a : Affix) (text : String) : String :=
  a.before.getD "" ++ text ++ a.after.getD ""

end Affix

/-- An operator that rules may name. -/
structure Operator where
  name : String
  comparison : Comparison
  usesValue : Bool
  affix : Affix
  deriving DecidableEq

namespace Operator

/-- The operator compares with the empty text. -/
def isBlankCheck (o : Operator) : Bool :=
  !o.usesValue && !o.comparison.isNullCheck

/-- How many values the operator takes from a rule. -/
def arity (o : Operator) : Arity :=
  if !o.usesValue then .none
  else if o.comparison.isRange then .two
  else if o.comparison.takesSeveral then .several
  else .one

end Operator

end RuleFilter
