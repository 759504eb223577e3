import RuleFilter.Filter.Named
import RuleFilter.Renderer

/-! # Queries

A query gathers filters into one and keeps the values of their placeholders in the order of their
first binding. -/

namespace RuleFilter

/-- A filter under construction, with the values of its placeholders. -/
structure Query where
  filter : Option (Filter String)
  bindings : Bindings

namespace Query

/-- No filter and no bindings. -/
def empty : Query :=
  ⟨none, []⟩

/-- Joins a filter to everything before it; the first one stands as it is. -/
def add (q : Query) (connective : Connective) (f : Filter String) : Query :=
  { q with filter := some (match q.filter with
      | none => f
      | some before => before.combine connective f) }

/-- Gives a placeholder a value. -/
def bind (q : Query) (name : String) (value : Value) : Query :=
  { q with bindings := q.bindings.assign name value }

/-- The value of a placeholder. -/
def value? (q : Query) (name : String) : Option Value :=
  q.bindings.lookup name

/-- The placeholders of the filter, from left to right. -/
def placeholders (q : Query) : List String :=
  match q.filter with
  | none => []
  | some f => f.references

/-- The text of the filter with named placeholders; empty without a filter. -/
def text (q : Query) : String :=
  match q.filter with
  | none => ""
  | some f => f.text

/-- The text as a clause to append to a statement. -/
def whereClause (q : Query) : String :=
  match q.filter with
  | none => ""
  | some f => " WHERE " ++ f.text

/-- The text for a prepared statement and the values of its placeholders in their order. -/
def render (q : Query) (d : Dialect) : Except RenderError (String × List Value) :=
  let r := Renderer.fresh d q.bindings
  match q.filter with
  | none => r.finish
  | some f => (f.render r).finish

end Query

end RuleFilter
