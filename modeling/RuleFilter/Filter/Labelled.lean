import RuleFilter.Sink
import RuleFilter.NameSupply

/-! # Labelled comparisons

A comparison with values becomes one with placeholders by drawing a name for every value, from left
to right. A labelled comparison keeps each name with its value; a sink takes the names as a filter
and then the bindings. -/

namespace RuleFilter

/-- A value with the name of its placeholder. -/
abbrev Labelled := String × Value

namespace NameSupply

/-- Draws a name for every value. -/
def label (taken : List String) : List Value → NameSupply → List Labelled × NameSupply
  | [], supply => ([], supply)
  | value :: rest, supply =>
    let (name, supply) := supply.draw taken
    let (others, supply) := label taken rest supply
    ((name, value) :: others, supply)

end NameSupply

/-- The right-hand side with a name for every value. -/
def Operand.label (taken : List String) (supply : NameSupply) :
    Operand Value → Operand Labelled × NameSupply
  | .none => (.none, supply)
  | .blank => (.blank, supply)
  | .single value =>
    let (name, supply) := supply.draw taken
    (.single (name, value), supply)
  | .list values =>
    let (labelled, supply) := supply.label taken values
    (.list labelled, supply)
  | .range low high =>
    let (lowName, supply) := supply.draw taken
    let (highName, supply) := supply.draw taken
    (.range (lowName, low) (highName, high), supply)

/-- The comparison with a name for every value. -/
def Predicate.label (taken : List String) (supply : NameSupply) (p : Predicate Value) :
    Predicate Labelled × NameSupply :=
  let (operand, supply) := p.operand.label taken supply
  (⟨p.field, p.comparison, operand⟩, supply)

namespace Sink

variable {σ : Type} [Sink σ]

/-- Takes a labelled comparison: the comparison itself, then its bindings. -/
def take (sink : σ) (connective : Connective) (p : Predicate Labelled) : σ :=
  bindAll (add sink connective (.leaf (p.map Prod.fst))) p.operand.toList

/-- Takes a comparison with values, drawing names for them. -/
def place (taken : List String) (connective : Connective) (p : Predicate Value)
    (state : σ × NameSupply) : σ × NameSupply :=
  let (labelled, supply) := p.label taken state.2
  (take state.1 connective labelled, supply)

end Sink

end RuleFilter
