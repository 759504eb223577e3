import RuleFilter.Connective
import RuleFilter.Rule.Basic
import RuleFilter.CompileError

/-! # Traced computations

A computation either succeeds or stops at an error, and in both cases leaves a log of what happened
up to there. -/

namespace RuleFilter

/-- An entry of the log. -/
inductive Event where
  | skipped (id : String) (reason : RuleSkip)
  | noRules
  | enteredGroup (condition : Connective) (rules : Nat)
  | committing (bindings : Nat)
  deriving DecidableEq

/-- The entry as a line: its level, what happened, and the particulars. -/
def Event.line : Event → String
  | .skipped id reason => "WARN Skipping rule rule=" ++ id ++ " reason=" ++ reason.message
  | .noRules => "DEBUG Payload has no rules, leaving query unchanged"
  | .enteredGroup condition rules =>
    "DEBUG Entering nested group condition=" ++ condition.keyword ++ " rules=" ++ toString rules
  | .committing bindings =>
    "DEBUG Committing translated predicates params=" ++ toString bindings

/-- A result, or the error that stands in its place, with the log. -/
structure Traced (α : Type) where
  log : List Event
  result : Except CompileError α

namespace Traced

variable {α β : Type}

/-- A result without a log. -/
def pure (a : α) : Traced α :=
  ⟨[], .ok a⟩

/-- One computation after the other; an error ends both. -/
def bind (x : Traced α) (f : α → Traced β) : Traced β :=
  match x.result with
  | .error e => ⟨x.log, .error e⟩
  | .ok a => ⟨x.log ++ (f a).log, (f a).result⟩

instance : Monad Traced where
  pure := pure
  bind := bind

/-- An entry of the log and nothing else. -/
def tell (event : Event) : Traced Unit :=
  ⟨[event], .ok ()⟩

/-- A result or an error without a log. -/
def lift (result : Except CompileError α) : Traced α :=
  ⟨[], result⟩

end Traced

end RuleFilter
