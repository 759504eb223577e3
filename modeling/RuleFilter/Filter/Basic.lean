import RuleFilter.Operator.Comparison
import RuleFilter.Connective

/-! # Filters

A filter is a boolean combination of comparisons. What a comparison has on its right is of a type
`α`: values while a filter is being planned, placeholder names once it is written. -/

namespace RuleFilter

/-- The right-hand side of a comparison. -/
inductive Operand (α : Type) where
  /-- Nothing, as after `IS NULL`. -/
  | none
  /-- The empty text literal. -/
  | blank
  | single (a : α)
  | list (as : List α)
  | range (low high : α)
  deriving DecidableEq

namespace Operand

variable {α β : Type}

/-- What the right-hand side refers to, from left to right. -/
def toList : Operand α → List α
  | .none | .blank => []
  | .single a => [a]
  | .list as => as
  | .range low high => [low, high]

/-- The same right-hand side with other references. -/
def map (f : α → β) : Operand α → Operand β
  | .none => .none
  | .blank => .blank
  | .single a => .single (f a)
  | .list as => .list (as.map f)
  | .range low high => .range (f low) (f high)

end Operand

/-- A comparison of one field. -/
structure Predicate (α : Type) where
  field : String
  comparison : Comparison
  operand : Operand α
  deriving DecidableEq

/-- The same comparison with other references. -/
def Predicate.map {α β : Type} (f : α → β) (p : Predicate α) : Predicate β :=
  { p with operand := p.operand.map f }

/-- A boolean combination of comparisons. -/
inductive Filter (α : Type) where
  | leaf (predicate : Predicate α)
  | group (connective : Connective) (parts : List (Filter α))

namespace Filter

variable {α : Type}

/-- One filter for the parts of a group: none for no part, a single part as it is, and a group for
two parts or more. -/
def join? (connective : Connective) : List (Filter α) → Option (Filter α)
  | [] => none
  | [part] => some part
  | parts => some (.group connective parts)

/-- Adds a filter behind this one. A group of the same connective is extended; anything else
becomes the first of two parts. -/
def combine (f : Filter α) (connective : Connective) (other : Filter α) : Filter α :=
  match f with
  | .leaf p => .group connective [.leaf p, other]
  | .group inner parts =>
    if inner = connective then .group inner (parts ++ [other])
    else .group connective [.group inner parts, other]

/-- Whether this is a group and not a single comparison. -/
def isGroup : Filter α → Bool
  | .leaf _ => false
  | .group _ _ => true

mutual

/-- All comparisons, from left to right. -/
def predicates : Filter α → List (Predicate α)
  | .leaf p => [p]
  | .group _ parts => predicatesOfAll parts

/-- All comparisons of several filters, from left to right. -/
def predicatesOfAll : List (Filter α) → List (Predicate α)
  | [] => []
  | part :: rest => part.predicates ++ predicatesOfAll rest

end

/-- Everything that the comparisons refer to, from left to right. -/
def references (f : Filter α) : List α :=
  f.predicates.flatMap fun p => p.operand.toList

end Filter

end RuleFilter
