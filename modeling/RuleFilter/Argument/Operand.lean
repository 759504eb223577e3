import RuleFilter.CompileError
import RuleFilter.Filter.Labelled

/-! # Arguments as operands

The operand of a comparison follows from the operator and its argument. An argument of the wrong
form is an error, and then nothing is handed to a sink and no name is drawn. -/

namespace RuleFilter

namespace Operator

/-- The right-hand side of the comparison of an operator with its argument, if the argument has the
form that the operator takes. An operator without a value ignores its argument. -/
def operand? (o : Operator) (argument : Argument) : Option (Operand Value) :=
  match o.arity, argument with
  | .none, _ => some (if o.comparison.isNullCheck then .none else .blank)
  | .one, .single value => some (.single value)
  | .two, .list [low, high] => some (.range low high)
  | .several, .list (value :: rest) => some (.list (value :: rest))
  | _, _ => none

/-- The comparison of a field by an operator with its argument. -/
def compare (o : Operator) (field : String) (argument : Argument) :
    Except CompileError (Predicate Value) :=
  match o.operand? argument with
  | some operand => .ok ⟨field, o.comparison, operand⟩
  | none => .error (.arityMismatch field o.name o.arity argument.shape)

end Operator

/-- Hands the comparison of a field by an operator with its argument to a sink. -/
def Sink.addComparison {σ : Type} [Sink σ] (taken : List String) (connective : Connective)
    (field : String) (o : Operator) (argument : Argument) (state : σ × NameSupply) :
    Except CompileError (σ × NameSupply) :=
  (o.compare field argument).map fun p => Sink.place taken connective p state

end RuleFilter
