import RuleFilter.Proofs.Faults
import RuleFilter.Proofs.Idle

/-! # Handing over a comparison

A comparison is handed to a sink as a whole or not at all (`addComparison_whole`). Which arguments
an operator takes is said by its arity alone (`Operator.Takes`), and it takes every argument that
coercion gives it.

An error leaves sink and supply as they were, although names are drawn while the right-hand side is
built: `Emission.emit` works in place, draw by draw, with a state that an error does not undo, and
still comes to the same (`Emission.emit_eq`). -/

namespace RuleFilter

/-! ### What an operator takes -/

namespace Operator

/-- An operator takes an argument: any at all if it takes no values, and else as many values as its
arity asks for. -/
inductive Takes (o : Operator) : Argument → Prop where
  | none (arity : o.arity = .none) (argument : Argument) : Takes o argument
  | one (arity : o.arity = .one) (value : Value) : Takes o (.single value)
  | two (arity : o.arity = .two) {values : List Value} (length : values.length = 2) :
      Takes o (.list values)
  | several (arity : o.arity = .several) {values : List Value} (nonempty : values ≠ []) :
      Takes o (.list values)

/-- The values that an operator compares a field with. -/
def valuesIn (o : Operator) (argument : Argument) : List Value :=
  if o.usesValue then argument.values else []

theorem takes_iff {o : Operator} {argument : Argument} :
    o.Takes argument ↔ ∃ operand, o.operand? argument = some operand := by
  unfold operand?
  constructor
  · intro h
    cases h with
    | none arity =>
      rw [arity]
      exact ⟨_, rfl⟩
    | one arity value =>
      rw [arity]
      exact ⟨_, rfl⟩
    | @two arity values length =>
      obtain ⟨low, high, rfl⟩ := List.length_eq_two.mp length
      rw [arity]
      exact ⟨_, rfl⟩
    | @several arity values nonempty =>
      obtain ⟨value, rest, rfl⟩ := List.exists_cons_of_ne_nil nonempty
      rw [arity]
      exact ⟨_, rfl⟩
  · rintro ⟨operand, h⟩
    split at h
    · exact .none ‹_› _
    · exact .one ‹_› _
    · exact .two ‹_› rfl
    · exact .several ‹_› (List.cons_ne_nil _ _)
    · cases h

theorem toList_of_operand? {o : Operator} {argument : Argument} {operand : Operand Value}
    (h : o.operand? argument = some operand) : operand.toList = o.valuesIn argument := by
  unfold valuesIn
  cases huse : o.usesValue with
  | true => exact (operand?_of_usesValue huse h).2
  | false =>
    rw [operand?_of_not_usesValue huse] at h
    rw [if_neg Bool.false_ne_true, ← Option.some.inj h]
    split_ifs <;> rfl

/-- Coercion gives an operator what it takes. -/
theorem takes_of_coerce {operators : OperatorTable} {settings : Settings} {rule : Rule}
    {o : Operator} {argument : Argument}
    (h : rule.coerce operators settings = .ok (o, argument)) : o.Takes argument := by
  unfold Rule.coerce at h
  split at h
  · cases h
  · obtain ⟨argument, hargument, heq⟩ := except_map_eq_ok.mp h
    cases heq
    exact takes_iff.mpr (exists_operand_of_argument hargument)

end Operator

/-! ### What a sink is handed -/

/-- A comparison and its bindings are what an operator makes of a field and an argument: it has the
field and the comparison of the operator, its placeholders are the names of the bindings, and these
are drawn from a supply, one for each value. -/
structure Placement (taken : List String) (field : String) (o : Operator) (argument : Argument)
    (supply after : NameSupply) (p : Predicate String) (bindings : Bindings) : Prop where
  field : p.field = field
  comparison : p.comparison = o.comparison
  placeholders : (Filter.leaf p).references = bindings.names
  values : bindings.map Prod.snd = o.valuesIn argument
  drawn : supply.label taken (o.valuesIn argument) = (bindings, after)
  free : ∃ numbers, NameSupply.Drawn taken supply.stem supply.next after.next numbers ∧
    bindings.names = numbers.map (NameSupply.name supply.stem)

theorem placement_label (taken : List String) (field : String) {o : Operator} {argument : Argument}
    {operand : Operand Value} (supply : NameSupply) (h : o.operand? argument = some operand) :
    Placement taken field o argument supply (operand.label taken supply).2
      ⟨field, o.comparison, (operand.label taken supply).1.map Prod.fst⟩
      (operand.label taken supply).1.toList := by
  have hrow : supply.label taken (o.valuesIn argument) =
      ((operand.label taken supply).1.toList, (operand.label taken supply).2) := by
    rw [← Operator.toList_of_operand? h]
    exact Operand.label_toList taken supply operand
  have hvalues := NameSupply.map_snd_label taken (o.valuesIn argument) supply
  obtain ⟨numbers, hdrawn, hnames⟩ :=
    NameSupply.label_drawn taken supply.stem (o.valuesIn argument) supply.next
  rw [hrow] at hvalues hdrawn hnames
  exact {
    field := rfl
    comparison := rfl
    placeholders := by
      rw [Filter.references_leaf, Operand.toList_map]
      rfl
    values := hvalues
    drawn := hrow
    free := ⟨numbers, hdrawn, hnames⟩ }

/-- The calls that hand over a comparison and then its bindings. -/
def Predicate.calls (c : Connective) (p : Predicate String) (bindings : Bindings) : List Call :=
  .add c (.leaf p) :: bindings.calls

theorem addComparison_eq {σ : Type} [Sink σ] (taken : List String) (c : Connective)
    (field : String) (o : Operator) (argument : Argument) (sink : σ) (supply : NameSupply) :
    Sink.addComparison taken c field o argument (sink, supply) =
      match o.operand? argument with
      | some operand =>
        let labelled := (operand.label taken supply).1
        .ok (Sink.receiveAll sink (Predicate.calls c ⟨field, o.comparison, labelled.map Prod.fst⟩
          labelled.toList), (operand.label taken supply).2)
      | none => .error (.arityMismatch field o.name o.arity argument.shape) := by
  unfold Sink.addComparison Operator.compare
  cases o.operand? argument with
  | none => rfl
  | some operand =>
    simp only [Except.map, Sink.place, Predicate.label, Sink.take, Sink.bindAll_eq_receiveAll]
    rfl

/-! ### All or nothing -/

/-- **A comparison is handed over as a whole or not at all.** It is handed over just if the operator
takes the argument; then the sink gets the comparison and after it one binding for each placeholder,
as the log of the sink shows, under names that were free. Otherwise the error says what the operator
asks for, and work in place has changed neither sink nor supply by then. What coercion gives an
operator is always handed over. -/
theorem addComparison_whole {σ : Type} [Sink σ] (taken : List String) (c : Connective)
    (field : String) (o : Operator) (argument : Argument) (sink : σ) (supply : NameSupply) :
    ((∃ state, Sink.addComparison taken c field o argument (sink, supply) = .ok state) ↔
      o.Takes argument) ∧
    (o.Takes argument → ∃ p bindings after,
      Placement taken field o argument supply after p bindings ∧
      Sink.addComparison taken c field o argument (sink, supply) =
        .ok (Sink.receiveAll sink (p.calls c bindings), after) ∧
      Sink.addComparison taken c field o argument (Logged.fresh sink, supply) =
        .ok (⟨Sink.receiveAll sink (p.calls c bindings), p.calls c bindings⟩, after) ∧
      Emission.emit taken c field o argument (sink, supply) =
        .ok () (Sink.receiveAll sink (p.calls c bindings), after)) ∧
    (¬ o.Takes argument →
      Sink.addComparison taken c field o argument (sink, supply) =
        .error (.arityMismatch field o.name o.arity argument.shape) ∧
      Emission.emit taken c field o argument (sink, supply) =
        .error (.arityMismatch field o.name o.arity argument.shape) (sink, supply)) ∧
    ∀ operators settings (rule : Rule), rule.coerce operators settings = .ok (o, argument) →
      ∃ state, Sink.addComparison taken c field o argument (sink, supply) = .ok state := by
  have hwhole : (∃ state, Sink.addComparison taken c field o argument (sink, supply) = .ok state) ↔
      o.Takes argument := by
    rw [Operator.takes_iff, addComparison_eq]
    cases o.operand? argument <;> simp
  refine ⟨hwhole, fun h => ?_, fun h => ?_, fun operators settings rule hcoerce =>
    hwhole.mpr (Operator.takes_of_coerce hcoerce)⟩
  · obtain ⟨operand, hoperand⟩ := Operator.takes_iff.mp h
    refine ⟨_, _, _, placement_label taken field supply hoperand, ?_, ?_, ?_⟩
    · rw [addComparison_eq, hoperand]
    · rw [addComparison_eq, hoperand]
      simp only [Logged.receiveAll_eq]
      rfl
    · rw [Emission.emit_eq, addComparison_eq, hoperand]
  · have hnone : o.operand? argument = none := by
      rw [Operator.takes_iff] at h
      exact Option.eq_none_iff_forall_ne_some.mpr fun operand ho => h ⟨operand, ho⟩
    rw [Emission.emit_eq, addComparison_eq, hnone]
    exact ⟨rfl, rfl⟩

end RuleFilter
