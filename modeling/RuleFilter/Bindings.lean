import RuleFilter.Value

/-! # Bindings

The values of placeholders, in the order in which they were first bound. -/

namespace RuleFilter

/-- Placeholder names with their values. -/
abbrev Bindings := List (String × Value)

namespace Bindings

/-- Gives a name a value: in its place if it has one already, at the end otherwise. -/
def assign (name : String) (value : Value) : Bindings → Bindings
  | [] => [(name, value)]
  | (n, v) :: rest => if n = name then (name, value) :: rest else (n, v) :: assign name value rest

end Bindings

end RuleFilter
