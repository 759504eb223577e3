import RuleFilter.Plan
import RuleFilter.Proofs.Arguments
import RuleFilter.Proofs.Collapse
import Mathlib.Data.List.Forall2

/-! # Planning

What the plan of a rule tree holds is said by the rules of the tree alone: the comparisons of the
plan are those that the valid leaves ask for, in document order (`plan_rules`), and after collapsing
there is one filter for every node that has a valid leaf (`planAll_children`). -/

namespace RuleFilter

/-! ### Traced computations -/

namespace Traced

variable {α β : Type}

@[simp]
theorem result_pure (a : α) : (Pure.pure a : Traced α).result = .ok a := rfl

@[simp]
theorem result_tell (event : Event) : (tell event).result = .ok () := rfl

@[simp]
theorem result_lift (x : Except CompileError α) : (lift x).result = x := rfl

theorem result_bind (x : Traced α) (f : α → Traced β) :
    (x >>= f).result = x.result >>= fun a => (f a).result := by
  show (Traced.bind x f).result = _
  unfold Traced.bind
  cases x.result <;> rfl

theorem result_bind_eq_ok {x : Traced α} {f : α → Traced β} {b : β} :
    (x >>= f).result = .ok b ↔ ∃ a, x.result = .ok a ∧ (f a).result = .ok b := by
  rw [result_bind, except_bind_eq_ok]

theorem error_of_bind_pure {x : Traced α} {f : α → β} {e : CompileError}
    (h : (x >>= fun a => (Pure.pure (f a) : Traced β)).result = .error e) :
    x.result = .error e := by
  rw [result_bind] at h
  cases hx : x.result with
  | error e' =>
    rw [hx] at h
    cases h
    rfl
  | ok a =>
    rw [hx] at h
    cases h

@[simp]
theorem log_tell (event : Event) : (tell event).log = [event] := rfl

@[simp]
theorem log_lift (x : Except CompileError α) : (lift x).log = [] := rfl

/-- An error ends the log; otherwise the next computation goes on with it. -/
theorem log_bind (x : Traced α) (f : α → Traced β) :
    (x >>= f).log = x.log ++
      match x.result with
      | .ok a => (f a).log
      | .error _ => [] := by
  show (Traced.bind x f).log = _
  unfold Traced.bind
  cases x.result with
  | error e => exact (List.append_nil _).symm
  | ok a => rfl

/-- What is made of the result does not show in the log. -/
theorem log_bind_pure (x : Traced α) (f : α → β) :
    (x >>= fun a => (Pure.pure (f a) : Traced β)).log = x.log := by
  rw [log_bind]
  cases x.result <;> exact List.append_nil _

end Traced

/-! ### The valid rules of a tree -/

namespace RuleNode

mutual

/-- The rules among the leaves of a node, in document order. -/
def validRules (operators : OperatorTable) : RuleNode → List Rule
  | .leaf members => (Rule.ofLeaf operators members).toOption.toList
  | .group _ rules => validRulesOfAll operators rules

/-- The rules among the leaves of several nodes, in document order. -/
def validRulesOfAll (operators : OperatorTable) : List RuleNode → List Rule
  | [] => []
  | node :: rest => node.validRules operators ++ validRulesOfAll operators rest

end

/-- Whether some leaf of a node is a rule. -/
def hasRule (operators : OperatorTable) (node : RuleNode) : Bool :=
  !(node.validRules operators).isEmpty

end RuleNode

namespace Compiler

variable {compiler : Compiler}

/-- The values that a rule compares its field with. -/
def valuesOf (compiler : Compiler) (rule : Rule) : List Value :=
  match rule.coerce compiler.operators compiler.settings with
  | .ok (_, argument) => argument.values
  | .error _ => []

/-- A comparison is the one that a rule asks for, up to what stands for its values. -/
def Expresses {α : Type} (compiler : Compiler) (rule : Rule) (p : Predicate α) : Prop :=
  ∃ o argument, rule.coerce compiler.operators compiler.settings = .ok (o, argument) ∧
    p.field = rule.field ∧ p.comparison = o.comparison ∧ p.operand.kind = argument.kind ∧
    p.operand.toList.length = argument.values.length

/-- What stands for the values may be replaced. -/
theorem expresses_map {α β γ : Type} {rule : Rule} {p : Predicate α} (g : α → β) (h : α → γ) :
    compiler.Expresses rule (p.map g) ↔ compiler.Expresses rule (p.map h) := by
  simp only [Expresses, Predicate.map, Operand.kind_map, Operand.toList_map, List.length_map]

/-! ### Leaves -/

theorem coerce_eq_ok {rule : Rule} {o : Operator} {argument : Argument}
    (h : rule.coerce compiler.operators compiler.settings = .ok (o, argument)) :
    compiler.operators.find? rule.operator = some o ∧
      rule.argument compiler.settings o = .ok argument := by
  unfold Rule.coerce at h
  split at h
  · cases h
  · rename_i o' hfind
    obtain ⟨a, ha, heq⟩ := except_map_eq_ok.mp h
    cases heq
    exact ⟨hfind, ha⟩

/-- A comparison puts the operand of its operator behind the field of the rule. -/
theorem comparison_operand {rule : Rule} {p : Predicate Value}
    (h : compiler.comparison rule = .ok p) : ∃ o argument,
      rule.coerce compiler.operators compiler.settings = .ok (o, argument) ∧
      p.field = rule.field ∧ p.comparison = o.comparison ∧
      o.operand? argument = some p.operand := by
  unfold comparison at h
  obtain ⟨-, -, h⟩ := except_bind_eq_ok.mp h
  obtain ⟨⟨o, argument⟩, hc, h⟩ := except_bind_eq_ok.mp h
  have hcompare : o.compare rule.field argument = .ok p := h
  unfold Operator.compare at hcompare
  cases ho : o.operand? argument with
  | none => rw [ho] at hcompare; cases hcompare
  | some operand =>
    rw [ho] at hcompare
    cases hcompare
    exact ⟨o, argument, hc, rfl, rfl, ho⟩

theorem comparison_eq_ok {rule : Rule} {p : Predicate Value}
    (h : compiler.comparison rule = .ok p) : ∃ o argument,
      rule.coerce compiler.operators compiler.settings = .ok (o, argument) ∧
      p.field = rule.field ∧ p.comparison = o.comparison ∧ p.operand.kind = argument.kind ∧
      p.operand.toList = argument.values := by
  obtain ⟨o, argument, hc, hfield, hcomparison, ho⟩ := comparison_operand h
  exact ⟨o, argument, hc, hfield, hcomparison, operand_of_argument (coerce_eq_ok hc).2 ho⟩

theorem expresses_of_comparison {rule : Rule} {p : Predicate Value}
    (h : compiler.comparison rule = .ok p) : compiler.Expresses rule p := by
  obtain ⟨o, argument, hc, hf, ho, hk, hv⟩ := comparison_eq_ok h
  exact ⟨o, argument, hc, hf, ho, hk, by rw [hv]⟩

theorem toList_of_comparison {rule : Rule} {p : Predicate Value}
    (h : compiler.comparison rule = .ok p) : p.operand.toList = compiler.valuesOf rule := by
  obtain ⟨o, argument, hc, -, -, -, hv⟩ := comparison_eq_ok h
  unfold valuesOf
  rw [hc]
  exact hv

theorem plan_leaf_eq_ok {members : Option Members} {part : Option Plan}
    (h : (compiler.plan (.leaf members)).result = .ok part) :
    (∃ reason, Rule.ofLeaf compiler.operators members = .error reason ∧ part = none) ∨
      ∃ rule p, Rule.ofLeaf compiler.operators members = .ok rule ∧
        compiler.comparison rule = .ok p ∧ part = some (.leaf p) := by
  unfold plan planLeaf at h
  split at h
  · rename_i reason hleaf
    cases h
    exact Or.inl ⟨reason, hleaf, rfl⟩
  · rename_i rule hleaf
    obtain ⟨p, hp, h⟩ := Traced.result_bind_eq_ok.mp h
    cases h
    exact Or.inr ⟨rule, p, hleaf, hp, rfl⟩

/-! ### Groups -/

theorem plan_group_eq_ok {condition : Option String} {rules : List RuleNode} {part : Option Plan}
    (h : (compiler.plan (.group condition rules)).result = .ok part) : ∃ c parts,
      compiler.connectiveOf condition = .ok c ∧ (compiler.planAll rules).result = .ok parts ∧
      part = some (.group c parts) := by
  unfold plan at h
  obtain ⟨c, hc, h⟩ := Traced.result_bind_eq_ok.mp h
  obtain ⟨-, -, h⟩ := Traced.result_bind_eq_ok.mp h
  obtain ⟨parts, hp, h⟩ := Traced.result_bind_eq_ok.mp h
  cases h
  exact ⟨c, parts, hc, hp, rfl⟩

theorem planAll_nil : (compiler.planAll []).result = .ok [] := rfl

theorem result_planAll_cons (node : RuleNode) (rest : List RuleNode) :
    (compiler.planAll (node :: rest)).result = (compiler.plan node).result >>= fun first =>
      (compiler.planAll rest).result >>= fun others => .ok (first.toList ++ others) := by
  simp only [planAll, Traced.result_bind, Traced.result_pure]

theorem planAll_cons_eq_ok {node : RuleNode} {rest : List RuleNode} {parts : List Plan}
    (h : (compiler.planAll (node :: rest)).result = .ok parts) : ∃ first others,
      (compiler.plan node).result = .ok first ∧ (compiler.planAll rest).result = .ok others ∧
      parts = first.toList ++ others := by
  rw [result_planAll_cons] at h
  obtain ⟨first, hf, h⟩ := except_bind_eq_ok.mp h
  obtain ⟨others, ho, h⟩ := except_bind_eq_ok.mp h
  cases h
  exact ⟨first, others, hf, ho, rfl⟩

/-! ### Document order -/

mutual

/-- **The comparisons of a plan are those of the valid leaves, in document order.** -/
theorem plan_rules : ∀ (node : RuleNode) {part : Option Plan},
    (compiler.plan node).result = .ok part →
      List.Forall₂ (fun rule p => compiler.comparison rule = .ok p)
        (node.validRules compiler.operators) (part.toList.flatMap Filter.predicates)
  | .leaf members, part, h => by
    rw [RuleNode.validRules]
    rcases plan_leaf_eq_ok h with ⟨reason, hleaf, rfl⟩ | ⟨rule, p, hleaf, hp, rfl⟩
    · rw [hleaf]; exact .nil
    · rw [hleaf]; exact .cons hp .nil
  | .group condition rules, part, h => by
    obtain ⟨c, parts, -, hp, rfl⟩ := plan_group_eq_ok h
    rw [RuleNode.validRules, Option.toList_some, List.flatMap_singleton, Filter.predicates_group]
    exact planAll_rules rules hp

theorem planAll_rules : ∀ (rules : List RuleNode) {parts : List Plan},
    (compiler.planAll rules).result = .ok parts →
      List.Forall₂ (fun rule p => compiler.comparison rule = .ok p)
        (RuleNode.validRulesOfAll compiler.operators rules) (parts.flatMap Filter.predicates)
  | [], parts, h => by cases h; exact .nil
  | node :: rest, parts, h => by
    obtain ⟨first, others, hf, ho, rfl⟩ := planAll_cons_eq_ok h
    rw [RuleNode.validRulesOfAll, List.flatMap_append]
    exact List.rel_append (plan_rules node hf) (planAll_rules rest ho)

end

/-! ### One filter for every child -/

/-- A filter holds the comparisons that the valid leaves of a node ask for, in document order. -/
def Holds (compiler : Compiler) (node : RuleNode) (f : Plan) : Prop :=
  List.Forall₂ (fun rule p => compiler.comparison rule = .ok p)
    (node.validRules compiler.operators) f.predicates

theorem hasRule_of_holds {node : RuleNode} {f : Plan} (h : compiler.Holds node f) :
    node.hasRule compiler.operators = !f.predicates.isEmpty := by
  have hlength := h.length_eq
  unfold RuleNode.hasRule
  cases hr : node.validRules compiler.operators <;> cases hp : f.predicates <;> simp_all

theorem plan_child (node : RuleNode) {part : Option Plan}
    (h : (compiler.plan node).result = .ok part) :
    List.Forall₂ compiler.Holds ([node].filter (·.hasRule compiler.operators))
      (Filter.collapseAll part.toList) := by
  have hrules := plan_rules node h
  cases part with
  | none =>
    have hempty : node.hasRule compiler.operators = false := by
      unfold RuleNode.hasRule
      rw [List.forall₂_nil_right_iff.mp hrules]
      rfl
    simp [hempty, Filter.collapseAll]
  | some f =>
    have hf : compiler.Holds node f := by
      rwa [Option.toList_some, List.flatMap_singleton] at hrules
    have hcollapse := Filter.predicates_collapse f
    rw [Option.toList_some, Filter.collapseAll_eq, List.flatMap_singleton]
    cases hg : f.collapse with
    | none =>
      have hnil := (Filter.collapse_eq_none_iff f).mp hg
      simp [hasRule_of_holds hf, hnil]
    | some g =>
      rw [hg, Option.toList_some, List.flatMap_singleton] at hcollapse
      have hne : f.predicates ≠ [] := fun hnil => by
        rw [(Filter.collapse_eq_none_iff f).mpr hnil] at hg
        cases hg
      have hhas : node.hasRule compiler.operators = true := by
        simpa [hasRule_of_holds hf] using hne
      rw [List.filter_singleton, hhas]
      refine .cons ?_ .nil
      unfold Holds at hf ⊢
      rwa [hcollapse]

/-- **After collapsing there is one filter for every node with a valid leaf**, and it holds the
comparisons of that node. -/
theorem planAll_children : ∀ (rules : List RuleNode) {parts : List Plan},
    (compiler.planAll rules).result = .ok parts →
      List.Forall₂ compiler.Holds (rules.filter (·.hasRule compiler.operators))
        (Filter.collapseAll parts)
  | [], parts, h => by cases h; exact .nil
  | node :: rest, parts, h => by
    obtain ⟨first, others, hf, ho, rfl⟩ := planAll_cons_eq_ok h
    rw [Filter.collapseAll_append, ← List.singleton_append, List.filter_append]
    exact List.rel_append (plan_child node hf) (planAll_children rest ho)

end Compiler

end RuleFilter
