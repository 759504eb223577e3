/-! # Placeholder names

Placeholder names are a stem followed by a number, counted upwards. Names that are taken are passed
over, and no name is drawn twice. -/

namespace RuleFilter

/-- The numbered names of a stem from some number on. -/
structure NameSupply where
  stem : String
  next : Nat

namespace NameSupply

/-- All numbered names of a stem. -/
def ofStem (stem : String) : NameSupply :=
  ⟨stem, 0⟩

/-- The name with a number. -/
def name (stem : String) (number : Nat) : String :=
  stem ++ toString number

/-- The first number whose name is free, when at most `steps` names are taken. -/
def firstFree (taken : List String) (stem : String) : Nat → Nat → Nat
  | 0, number => number
  | steps + 1, number =>
    if taken.contains (name stem number) then firstFree taken stem steps (number + 1) else number

/-- Draws the next free name. -/
def draw (taken : List String) (supply : NameSupply) : String × NameSupply :=
  let number := firstFree taken supply.stem taken.length supply.next
  (name supply.stem number, ⟨supply.stem, number + 1⟩)

end NameSupply

end RuleFilter
