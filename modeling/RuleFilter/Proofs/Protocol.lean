import RuleFilter.Proofs.Delivery

/-! # The protocol of a compilation

A compilation that succeeds makes all its calls in one order: first the filters of the root's
children, then the bindings of all placeholders. `Compiler.Delivers` says which filters and which
bindings these are, in terms of the valid leaves of the rule tree alone. -/

namespace RuleFilter

namespace Compiler

/-- The filters and bindings that the children of a root group come down to, where some names are
taken: a filter for every child that has a valid leaf, with the comparisons of its valid leaves, and
a binding for every placeholder. -/
structure Delivers (compiler : Compiler) (taken : List String) (condition : Option String)
    (rules : List RuleNode) (c : Connective) (filters : List (Filter String))
    (bindings : Bindings) : Prop where
  connective : compiler.connectiveOf condition = .ok c
  children : List.Forall₂
    (fun child f => List.Forall₂ compiler.Expresses (child.validRules compiler.operators)
      f.predicates)
    (rules.filter (·.hasRule compiler.operators)) filters
  names : bindings.names = filters.flatMap Filter.references
  numbered : ∃ numbers : List Nat, numbers.Pairwise (· < ·) ∧
    bindings.names = numbers.map (NameSupply.name compiler.settings.placeholderStem)
  free : ∀ name ∈ bindings.names, name ∉ taken
  values : bindings.map Prod.snd =
    (RuleNode.validRulesOfAll compiler.operators rules).flatMap compiler.valuesOf

/-- What a payload hands over: nothing if it holds no rules, else the filters of its root in their
order and then the bindings in theirs. -/
def HandsOver (compiler : Compiler) (taken : List String) (payload : Json)
    (called : List Call) : Prop :=
  match RuleNode.ofJson payload with
  | .leaf _ => called = []
  | .group condition rules => ∃ c filters bindings,
    compiler.Delivers taken condition rules c filters bindings ∧
      called = Call.delivery c filters bindings

variable {compiler : Compiler}

/-! ### The two halves of a delivery -/

theorem expresses_labelled {node : RuleNode} {f : Filter Labelled}
    (h : compiler.Holds node (f.map Prod.snd)) :
    List.Forall₂ compiler.Expresses (node.validRules compiler.operators)
      (f.map Prod.fst).predicates := by
  unfold Holds at h
  rw [Filter.predicates_map, List.forall₂_map_right_iff] at h ⊢
  refine h.imp fun rule p hp => ?_
  exact (expresses_map Prod.snd Prod.fst).mp (expresses_of_comparison hp)

theorem children_filtersOf {rules : List RuleNode} {parts : List Plan} (taken : List String)
    (h : (compiler.planAll rules).result = .ok parts) :
    List.Forall₂
      (fun child f => List.Forall₂ compiler.Expresses (child.validRules compiler.operators)
        f.predicates)
      (rules.filter (·.hasRule compiler.operators)) (compiler.filtersOf taken parts) := by
  have hchildren := planAll_children rules h
  rw [← compiler.map_snd_labelled taken parts, List.forall₂_map_right_iff] at hchildren
  unfold filtersOf
  rw [List.forall₂_map_right_iff]
  exact hchildren.imp fun child f => expresses_labelled

theorem values_of_planAll {rules : List RuleNode} {parts : List Plan}
    (h : (compiler.planAll rules).result = .ok parts) :
    parts.flatMap Filter.references =
      (RuleNode.validRulesOfAll compiler.operators rules).flatMap compiler.valuesOf := by
  have hrules := planAll_rules rules h
  rw [Filter.flatMap_references]
  generalize parts.flatMap Filter.predicates = ps at hrules
  generalize RuleNode.validRulesOfAll compiler.operators rules = rs at hrules
  induction hrules with
  | nil => rfl
  | cons hp _ ih => rw [List.flatMap_cons, List.flatMap_cons, ih, toList_of_comparison hp]

theorem handsOver_of_calls {taken : List String} {payload : Json} {called : List Call}
    (h : compiler.calls taken (.ofJson payload) = .ok called) :
    compiler.HandsOver taken payload called := by
  unfold HandsOver
  split
  · rename_i members hroot
    rw [hroot] at h
    cases h
    rfl
  · rename_i condition rules hroot
    rw [hroot] at h
    obtain ⟨c, parts, hc, hp, rfl⟩ := compiler.calls_group_eq_ok h
    obtain ⟨numbers, hincreasing, hnames, -⟩ := compiler.bindingsOf_numbered taken parts
    refine ⟨c, _, _, ?_, rfl⟩
    exact {
      connective := hc
      children := children_filtersOf taken hp
      names := compiler.names_bindingsOf taken parts
      numbered := ⟨numbers, hincreasing, hnames⟩
      free := compiler.bindingsOf_free taken parts
      values := by rw [compiler.values_bindingsOf, values_of_planAll hp] }

/-! ### The calls of a compilation, in their order -/

/-- **A compilation that succeeds makes the calls of its delivery and no other**: a sink ends where
they lead it, and a recorder with the same names taken writes down just these. -/
theorem compileJson_delivers {σ : Type} [Sink σ] (compiler : Compiler) (payload : Json)
    (sink sink' : σ) (h : (compiler.compileJson payload sink).result = .ok sink') :
    ∃ called, sink' = Sink.receiveAll sink called ∧
      (compiler.compileJson payload (Recorder.withTaken (Sink.boundNames sink))).result =
        .ok ⟨Sink.boundNames sink, called⟩ ∧
      compiler.HandsOver (Sink.boundNames sink) payload called := by
  unfold compileJson at h ⊢
  rw [compileNode_result] at h
  obtain ⟨called, hcalled, rfl⟩ := except_map_eq_ok.mp h
  have htaken : Sink.boundNames (Recorder.withTaken (Sink.boundNames sink)) =
      Sink.boundNames sink := List.append_nil _
  refine ⟨called, rfl, ?_, handsOver_of_calls hcalled⟩
  rw [compileNode_result, htaken, hcalled]
  exact congrArg Except.ok (Recorder.receiveAll_eq called _)

theorem compileJson_delivers_nestedPayload :
    (standardCompiler.compileJson nestedPayload (Recorder.withTaken ["p1"])).result =
        .ok ⟨["p1"], nestedCalls⟩ ∧
      ∃ called, Recorder.mk ["p1"] nestedCalls =
          Sink.receiveAll (Recorder.withTaken ["p1"]) called ∧
        (standardCompiler.compileJson nestedPayload (Recorder.withTaken ["p1"])).result =
          .ok ⟨["p1"], called⟩ ∧
        standardCompiler.HandsOver ["p1"] nestedPayload called :=
  ⟨rfl, compileJson_delivers standardCompiler nestedPayload (Recorder.withTaken ["p1"]) _ rfl⟩

end Compiler

end RuleFilter
