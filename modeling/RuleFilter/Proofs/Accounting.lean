import RuleFilter.Proofs.Faults
import RuleFilter.Proofs.Idle

/-! # Accounting for leaves

Every leaf of a payload is accounted for once: a valid one by a comparison of the filters that are
handed over, any other by an entry of the log. The log of a plan is read off the nodes in the order
of the visit (`Compiler.entries`): a leaf that is no rule and a nested group have an entry each, and
a node at fault ends the log in front of its own (`Compiler.log_plan`). So a compilation that
succeeds logs the entries of all nodes below the root and then its bindings, and one that fails logs
the entries in front of the first fault (`Compiler.compileJson_accounted`). -/

namespace RuleFilter

/-! ### Leaves -/

/-- The members of a leaf; none for a group. -/
def RuleNode.leaf? : RuleNode → Option (Option Members)
  | .leaf members => some members
  | .group _ _ => none

/-- The leaves of a node, in document order. -/
def RuleNode.leaves (node : RuleNode) : List (Option Members) :=
  node.visited.filterMap leaf?

/-- Whether a leaf is a rule. -/
def Compiler.isRule (compiler : Compiler) (leaf : Option Members) : Bool :=
  (Rule.ofLeaf compiler.operators leaf).toOption.isSome

theorem Compiler.isRule_of_ok {compiler : Compiler} {leaf : Option Members} {rule : Rule}
    (h : Rule.ofLeaf compiler.operators leaf = .ok rule) : compiler.isRule leaf = true := by
  rw [isRule, h]
  rfl

theorem Compiler.isRule_of_error {compiler : Compiler} {leaf : Option Members} {reason : RuleSkip}
    (h : Rule.ofLeaf compiler.operators leaf = .error reason) : compiler.isRule leaf = false := by
  rw [isRule, h]
  rfl

/-- The comparisons that a call hands over. -/
def Call.predicates : Call → List (Predicate String)
  | .add _ f => f.predicates
  | .bind _ _ => []

/-- The entry is about a leaf that was skipped. -/
def Event.isSkip : Event → Bool
  | .skipped _ _ => true
  | _ => false

namespace Compiler

variable (compiler : Compiler)

/-- A comparison stands for a leaf: the leaf is a rule, and the comparison has its field and the
comparison of its operator. -/
def Emits (leaf : Option Members) (p : Predicate String) : Prop :=
  ∃ rule o, Rule.ofLeaf compiler.operators leaf = .ok rule ∧
    compiler.operators.find? rule.operator = some o ∧
    p.field = rule.field ∧ p.comparison = o.comparison

/-- An entry of the log stands for a leaf: the leaf is no rule, and the entry shows its identifier
and the reason. -/
def Reports (leaf : Option Members) (event : Event) : Prop :=
  ∃ reason, Rule.ofLeaf compiler.operators leaf = .error reason ∧
    event = .skipped (displayId leaf) reason

/-! ### Entries -/

/-- The entry of a node that is visited: of a leaf if it is no rule, of a group if its condition is
read. -/
def entry? : RuleNode → Option Event
  | .leaf members =>
    match Rule.ofLeaf compiler.operators members with
    | .error reason => some (.skipped (displayId members) reason)
    | .ok _ => none
  | .group condition rules =>
    match compiler.connectiveOf condition with
    | .ok c => some (.enteredGroup c rules.length)
    | .error _ => none

/-- The entries of nodes. -/
def entries (nodes : List RuleNode) : List Event :=
  nodes.filterMap compiler.entry?

/-- The entries of nodes in front of the first fault. -/
def entriesToFault : List RuleNode → List Event
  | [] => []
  | node :: rest =>
    match compiler.faultOf? node with
    | none => (compiler.entry? node).toList ++ entriesToFault rest
    | some _ => []

variable {compiler}

theorem entriesToFault_append : ∀ xs ys : List RuleNode,
    compiler.entriesToFault (xs ++ ys) = compiler.entriesToFault xs ++
      match xs.findSome? compiler.faultOf? with
      | none => compiler.entriesToFault ys
      | some _ => []
  | [], ys => rfl
  | node :: xs, ys => by
    have hrest := entriesToFault_append xs ys
    rw [List.cons_append, entriesToFault, entriesToFault, List.findSome?_cons]
    cases compiler.faultOf? node with
    | none => simp only [hrest, List.append_assoc]
    | some e => rfl

/-- Without a fault every node has its entry. -/
theorem entriesToFault_of_sound : ∀ {nodes : List RuleNode},
    (∀ node ∈ nodes, compiler.faultOf? node = none) →
      compiler.entriesToFault nodes = compiler.entries nodes
  | [], _ => rfl
  | node :: rest, h => by
    obtain ⟨hnode, hrest⟩ := List.forall_mem_cons.mp h
    rw [entriesToFault, hnode, entriesToFault_of_sound hrest, entries, entries, List.filterMap_cons]
    cases compiler.entry? node <;> rfl

/-- The nodes in front of the first fault have theirs. -/
theorem entriesToFault_of_fault {before after : List RuleNode} {node : RuleNode} {e : CompileError}
    (hbefore : ∀ earlier ∈ before, compiler.faultOf? earlier = none)
    (hnode : compiler.faultOf? node = some e) :
    compiler.entriesToFault (before ++ node :: after) = compiler.entries before := by
  rw [entriesToFault_append, List.findSome?_eq_none_iff.mpr hbefore,
    entriesToFault_of_sound hbefore, entriesToFault, hnode]
  exact List.append_nil _

theorem committing_not_mem_entries (count : Nat) (nodes : List RuleNode) :
    .committing count ∉ compiler.entries nodes := by
  intro h
  obtain ⟨node, -, hentry⟩ := List.mem_filterMap.mp h
  unfold entry? at hentry
  split at hentry <;> split at hentry <;> cases hentry

/-! ### The log of a plan -/

/-- A leaf has an entry if it is no rule; a rule at fault ends the log. -/
theorem log_plan_leaf (members : Option Members) :
    (compiler.plan (.leaf members)).log = compiler.entriesToFault [.leaf members] := by
  simp only [plan, planLeaf, entriesToFault, faultOf?, entry?]
  cases Rule.ofLeaf compiler.operators members with
  | error reason => rfl
  | ok rule =>
    simp only [Traced.log_bind_pure, Traced.log_lift]
    cases errorOf (compiler.comparison rule) <;> rfl

mutual

/-- **A plan logs the nodes in the order of the visit**, up to the first fault. -/
theorem log_plan : ∀ node : RuleNode,
    (compiler.plan node).log = compiler.entriesToFault node.visited
  | .leaf members => log_plan_leaf members
  | .group condition rules => by
    have hparts (c : Connective) : (compiler.planAll rules >>= fun parts =>
        (Pure.pure (some (.group c parts)) : Traced (Option Plan))).log =
          compiler.entriesToFault (RuleNode.visitedAll rules) := by
      rw [Traced.log_bind_pure, log_planAll rules]
    rw [RuleNode.visited, entriesToFault, plan, Traced.log_bind]
    simp only [Traced.log_lift, Traced.result_lift, faultOf?, entry?]
    cases compiler.connectiveOf condition with
    | error e => rfl
    | ok c =>
      simp only [Traced.log_bind (Traced.tell _), Traced.log_tell, Traced.result_tell, hparts]
      rfl

theorem log_planAll : ∀ rules : List RuleNode,
    (compiler.planAll rules).log = compiler.entriesToFault (RuleNode.visitedAll rules)
  | [] => rfl
  | node :: rest => by
    have hnode := log_plan node
    have hrest := log_planAll rest
    rw [RuleNode.visitedAll, entriesToFault_append, ← errorOf_plan, planAll, Traced.log_bind, hnode]
    cases (compiler.plan node).result with
    | error e => rfl
    | ok first => simp only [Traced.log_bind_pure, hrest, errorOf]

end

/-! ### The leaves of a plan -/

/-- What is related to the images of items is related to the items that have one. -/
theorem forall₂_filter_isSome {α β γ : Type} {g : α → Option β} {R : β → γ → Prop} :
    ∀ {as : List α} {cs : List γ}, List.Forall₂ R (as.filterMap g) cs →
      List.Forall₂ (fun a c => ∃ b, g a = some b ∧ R b c) (as.filter fun a => (g a).isSome) cs
  | [], _, h => by
    cases h
    exact .nil
  | a :: as, cs, h => by
    cases hga : g a with
    | none =>
      rw [List.filterMap_cons_none hga] at h
      rw [List.filter_cons_of_neg (by simp [hga])]
      exact forall₂_filter_isSome h
    | some b =>
      rw [List.filterMap_cons_some hga] at h
      rw [List.filter_cons_of_pos (by simp [hga])]
      obtain ⟨c, cs, hbc, hrest, rfl⟩ := List.forall₂_cons_left_iff.mp h
      exact .cons ⟨b, hga, hbc⟩ (forall₂_filter_isSome hrest)

mutual

/-- The rules of a node are those of its leaves. -/
theorem validRules_eq (operators : OperatorTable) : ∀ node : RuleNode,
    node.validRules operators =
      node.leaves.filterMap fun leaf => (Rule.ofLeaf operators leaf).toOption
  | .leaf members => by
    unfold RuleNode.validRules
    cases hrule : Rule.ofLeaf operators members <;>
      simp [RuleNode.leaves, RuleNode.visited, RuleNode.leaf?, hrule, Except.toOption]
  | .group _ rules => validRulesOfAll_eq operators rules

theorem validRulesOfAll_eq (operators : OperatorTable) : ∀ rules : List RuleNode,
    RuleNode.validRulesOfAll operators rules =
      ((RuleNode.visitedAll rules).filterMap RuleNode.leaf?).filterMap fun leaf =>
        (Rule.ofLeaf operators leaf).toOption
  | [] => rfl
  | node :: rest => by
    rw [RuleNode.validRulesOfAll, RuleNode.visitedAll, List.filterMap_append,
      List.filterMap_append, validRules_eq operators node, validRulesOfAll_eq operators rest]
    rfl

end

theorem emits_of_comparison {leaf : Option Members} {rule : Rule} {p : Predicate Value}
    (hleaf : Rule.ofLeaf compiler.operators leaf = .ok rule)
    (hp : compiler.comparison rule = .ok p) {q : Predicate String} (hfield : q.field = p.field)
    (hcomparison : q.comparison = p.comparison) : compiler.Emits leaf q := by
  obtain ⟨o, argument, hc, hpfield, hpcomparison, -⟩ := comparison_operand hp
  exact ⟨rule, o, hleaf, (coerce_eq_ok hc).1, hfield.trans hpfield,
    hcomparison.trans hpcomparison⟩

/-- **Each valid leaf has its comparison**, and there are no others. -/
theorem emits_filtersOf {rules : List RuleNode} {parts : List Plan} (taken : List String)
    (h : (compiler.planAll rules).result = .ok parts) :
    List.Forall₂ compiler.Emits
      (((RuleNode.visitedAll rules).filterMap RuleNode.leaf?).filter compiler.isRule)
      ((compiler.filtersOf taken parts).flatMap Filter.predicates) := by
  have hvalues : ((compiler.labelled taken parts).flatMap Filter.predicates).map
      (Predicate.map Prod.snd) = parts.flatMap Filter.predicates := by
    rw [← Filter.predicates_collapseAll parts, ← compiler.map_snd_labelled taken parts,
      Filter.flatMap_predicates_map]
  have hrules := planAll_rules rules h
  rw [validRulesOfAll_eq, ← hvalues] at hrules
  have hleaves := forall₂_filter_isSome hrules
  rw [List.forall₂_map_right_iff] at hleaves
  rw [filtersOf, Filter.flatMap_predicates_map, List.forall₂_map_right_iff]
  refine hleaves.imp fun leaf p hleaf => ?_
  obtain ⟨rule, hrule, hp⟩ := hleaf
  exact emits_of_comparison (toOption_eq_some_iff.mp hrule) hp rfl rfl

/-- **Each other leaf has its entry**, and there are no other entries of skipped leaves. -/
theorem reports_entries : ∀ nodes : List RuleNode,
    List.Forall₂ compiler.Reports
      ((nodes.filterMap RuleNode.leaf?).filter fun leaf => !compiler.isRule leaf)
      ((compiler.entries nodes).filter Event.isSkip)
  | [] => .nil
  | .group condition rules :: rest => by
    have hrest := reports_entries rest
    have hentries : (compiler.entries (.group condition rules :: rest)).filter Event.isSkip =
        (compiler.entries rest).filter Event.isSkip := by
      unfold entries
      rw [List.filterMap_cons, entry?]
      cases compiler.connectiveOf condition <;> rfl
    rw [hentries]
    exact hrest
  | .leaf members :: rest => by
    have hrest := reports_entries rest
    unfold entries at hrest ⊢
    rw [List.filterMap_cons, List.filterMap_cons, entry?]
    cases hrule : Rule.ofLeaf compiler.operators members with
    | error reason =>
      simp only [RuleNode.leaf?]
      rw [List.filter_cons_of_pos (by simp [isRule_of_error hrule]), List.filter_cons_of_pos rfl]
      exact .cons ⟨reason, hrule, rfl⟩ hrest
    | ok rule =>
      simp only [RuleNode.leaf?]
      rw [List.filter_cons_of_neg (by simp [isRule_of_ok hrule])]
      exact hrest

/-! ### The log of a compilation -/

/-- A compilation logs what its plan logs and, if there is one, the number of its bindings. -/
theorem log_compileNode {σ : Type} [Sink σ] (condition : Option String) (rules : List RuleNode)
    (sink : σ) :
    (compiler.compileNode (.group condition rules) sink).log =
      match compiler.connectiveOf condition with
      | .error _ => []
      | .ok _ => compiler.entriesToFault (RuleNode.visitedAll rules) ++
        match (compiler.planAll rules).result with
        | .error _ => []
        | .ok parts =>
          [.committing (compiler.bindingsOf (Sink.boundNames sink) parts).length] := by
  unfold compileNode
  simp only [Traced.log_bind, Traced.log_lift, Traced.result_lift, log_planAll, Traced.log_tell,
    Traced.result_tell, draft_eq]
  cases compiler.connectiveOf condition with
  | error e => rfl
  | ok c => cases (compiler.planAll rules).result <;> rfl

/-- The calls and the log of a compilation account for the leaves of a rule tree: the comparisons
that were handed over stand for the valid leaves and the entries of skipped leaves for the others,
one for each and in document order. The log holds the entries of all nodes below the root, in the
order of the visit, and then the number of bindings. -/
structure Accounts (compiler : Compiler) (root : RuleNode) (called : List Call)
    (log : List Event) : Prop where
  emitted : List.Forall₂ compiler.Emits (root.leaves.filter compiler.isRule)
    (called.flatMap Call.predicates)
  skipped : List.Forall₂ compiler.Reports (root.leaves.filter fun leaf => !compiler.isRule leaf)
    (log.filter Event.isSkip)
  log : log = compiler.entries root.visited.tail ++
    [.committing (Call.names called).length]

variable {compiler : Compiler}

theorem predicates_delivery (c : Connective) (filters : List (Filter String))
    (bindings : Bindings) :
    (Call.delivery c filters bindings).flatMap Call.predicates =
      filters.flatMap Filter.predicates := by
  unfold Call.delivery Bindings.calls
  rw [List.flatMap_append, List.flatMap_map, List.flatMap_map]
  have hbind : (bindings.flatMap fun b => Call.predicates (.bind b.1 b.2)) = [] :=
    List.flatMap_eq_nil_iff.mpr fun _ _ => rfl
  rw [hbind, List.append_nil]
  rfl

/-- No node below the root is at fault if all of them are planned. -/
theorem log_planAll_of_ok {rules : List RuleNode} {parts : List Plan}
    (h : (compiler.planAll rules).result = .ok parts) :
    (compiler.planAll rules).log = compiler.entries (RuleNode.visitedAll rules) := by
  have hsound : (RuleNode.visitedAll rules).findSome? compiler.faultOf? = none := by
    rw [← errorOf_planAll]
    exact errorOf_eq_none_iff.mpr ⟨parts, h⟩
  rw [log_planAll, entriesToFault_of_sound (List.findSome?_eq_none_iff.mp hsound)]

/-- **A compilation that succeeds accounts for every leaf.** -/
theorem accounts_of_calls {σ : Type} [Sink σ] {condition : Option String}
    {rules : List RuleNode} {sink : σ} {called : List Call}
    (h : compiler.calls (Sink.boundNames sink) (.group condition rules) = .ok called) :
    compiler.Accounts (.group condition rules) called
      (compiler.compileNode (.group condition rules) sink).log := by
  obtain ⟨c, parts, hc, hparts, rfl⟩ := compiler.calls_group_eq_ok h
  have hlog : (compiler.compileNode (.group condition rules) sink).log =
      compiler.entries (RuleNode.visitedAll rules) ++
        [.committing (compiler.bindingsOf (Sink.boundNames sink) parts).length] := by
    rw [log_compileNode, hc, hparts, ← log_planAll, log_planAll_of_ok hparts]
  have hcount (filters : List (Filter String)) (bindings : Bindings) :
      (Call.names (Call.delivery c filters bindings)).length = bindings.length := by
    rw [Call.names_delivery, Bindings.names, List.length_map]
  refine ⟨?_, ?_, ?_⟩
  · rw [predicates_delivery]
    exact emits_filtersOf _ hparts
  · rw [hlog, List.filter_append]
    -- the entry of the bindings is not about a leaf
    show List.Forall₂ _ _ (_ ++ [])
    rw [List.append_nil]
    exact reports_entries (RuleNode.visitedAll rules)
  · rw [hlog, hcount]
    rfl

/-- **A compilation that fails logs what comes before the fault.** -/
theorem log_of_firstFault {σ : Type} [Sink σ] {root : RuleNode} {e : CompileError} (sink : σ)
    (h : compiler.FirstFault root e) :
    ∃ before node after, root.visited = before ++ node :: after ∧
      (∀ earlier ∈ before, ∀ e', ¬ compiler.Fault earlier e') ∧ compiler.Fault node e ∧
      (compiler.compileNode root sink).log = compiler.entries before.tail := by
  obtain ⟨⟨condition, rules, rfl⟩, before, node, after, hvisited, hbefore, hnode⟩ := h
  refine ⟨before, node, after, hvisited, hbefore, hnode, ?_⟩
  rw [log_compileNode]
  cases before with
  | nil =>
    -- the root is at fault itself
    obtain ⟨rfl, -⟩ := List.cons.inj hvisited
    rw [← faultOf?_eq_some_iff, faultOf?, errorOf_eq_some_iff] at hnode
    rw [hnode]
    rfl
  | cons root before =>
    obtain ⟨hroot, hbelow⟩ : root = .group condition rules ∧
        RuleNode.visitedAll rules = before ++ node :: after := by
      obtain ⟨hroot, hbelow⟩ := List.cons.inj hvisited
      exact ⟨hroot.symm, hbelow⟩
    have hsound : ∀ earlier ∈ root :: before, compiler.faultOf? earlier = none :=
      fun earlier h => faultOf?_eq_none_iff.mpr (hbefore earlier h)
    obtain ⟨hrootSound, hsound⟩ := List.forall_mem_cons.mp hsound
    have hfault : compiler.faultOf? node = some e := faultOf?_eq_some_iff.mpr hnode
    have hplan : (compiler.planAll rules).result = .error e := by
      rw [← errorOf_eq_some_iff, errorOf_planAll, hbelow, List.findSome?_append,
        List.findSome?_eq_none_iff.mpr hsound, List.findSome?_cons, hfault]
      rfl
    obtain ⟨c, hc⟩ : ∃ c, compiler.connectiveOf condition = .ok c := by
      rwa [hroot, faultOf?, errorOf_eq_none_iff] at hrootSound
    rw [hc, hplan, hbelow, entriesToFault_of_fault hsound hfault]
    exact List.append_nil _

/-- **Every leaf of a payload is accounted for once.** If a payload with rules compiles, its calls
and its log account for its leaves. If it does not, the log holds the entries of the nodes in front
of the one at fault, but for the root, and no entry about bindings. -/
theorem compileJson_accounted {σ : Type} [Sink σ] (compiler : Compiler) (payload : Json)
    (sink : σ) :
    (∀ sink' condition rules, RuleNode.ofJson payload = .group condition rules →
      (compiler.compileJson payload sink).result = .ok sink' →
        ∃ called, sink' = Sink.receiveAll sink called ∧ compiler.Makes payload sink called ∧
          compiler.Accounts (.ofJson payload) called (compiler.compileJson payload sink).log) ∧
    ∀ e, (compiler.compileJson payload sink).result = .error e →
      ∃ before node after, (RuleNode.ofJson payload).visited = before ++ node :: after ∧
        (∀ earlier ∈ before, ∀ e', ¬ compiler.Fault earlier e') ∧ compiler.Fault node e ∧
        (compiler.compileJson payload sink).log = compiler.entries before.tail ∧
        ∀ count, .committing count ∉ (compiler.compileJson payload sink).log := by
  constructor
  · intro sink' condition rules hroot hresult
    unfold compileJson at hresult
    rw [compileNode_result] at hresult
    obtain ⟨called, hcalled, rfl⟩ := except_map_eq_ok.mp hresult
    refine ⟨called, rfl, makes_iff.mpr hcalled, ?_⟩
    unfold compileJson
    rw [hroot] at hcalled ⊢
    exact accounts_of_calls hcalled
  · intro e hresult
    obtain ⟨before, node, after, hvisited, hbefore, hnode, hlog⟩ :=
      log_of_firstFault sink ((compileNode_eq_error_iff _ sink e).mp hresult)
    refine ⟨before, node, after, hvisited, hbefore, hnode, hlog, fun count h => ?_⟩
    unfold compileJson at h
    rw [hlog] at h
    exact committing_not_mem_entries count before.tail h

/-- A payload with a fault inside a nested group, and a leaf behind it that is never met. -/
def faultyPayload : Json :=
  .obj [("rules", .arr
    [textRule "b" "no_such_operator" .null,
      .obj [("condition", .str "or"), ("rules", .arr
        [.null, textRule "a b" "equal" (.num (.int 1)), .null])]])]

/-- The group without rules vanishes from the calls, but not from the log. -/
theorem compileJson_accounted_nestedPayload :
    (standardCompiler.compileJson nestedPayload (Recorder.withTaken ["p1"])).result =
        .ok ⟨["p1"], nestedCalls⟩ ∧
      (standardCompiler.compileJson nestedPayload (Recorder.withTaken ["p1"])).log =
        [.enteredGroup .and 1, .skipped "<none>" .notAnObject, .enteredGroup .and 1,
          .committing 3] ∧
      (∃ called, Recorder.mk ["p1"] nestedCalls =
          Sink.receiveAll (Recorder.withTaken ["p1"]) called ∧
        standardCompiler.Makes nestedPayload (Recorder.withTaken ["p1"]) called ∧
        standardCompiler.Accounts (.ofJson nestedPayload) called
          (standardCompiler.compileJson nestedPayload (Recorder.withTaken ["p1"])).log) ∧
      (standardCompiler.compileJson faultyPayload Query.empty).result =
        .error (.fieldNotPath "a b") ∧
      (standardCompiler.compileJson faultyPayload Query.empty).log =
        [.skipped "b" (.unknownOperator "no_such_operator"), .enteredGroup .or 3,
          .skipped "<none>" .notAnObject] ∧
      ∃ before node after, (RuleNode.ofJson faultyPayload).visited = before ++ node :: after ∧
        (∀ earlier ∈ before, ∀ e', ¬ standardCompiler.Fault earlier e') ∧
        standardCompiler.Fault node (.fieldNotPath "a b") ∧
        (standardCompiler.compileJson faultyPayload Query.empty).log =
          standardCompiler.entries before.tail ∧
        ∀ count,
          .committing count ∉ (standardCompiler.compileJson faultyPayload Query.empty).log := by
  have hnested := (compileJson_accounted standardCompiler nestedPayload
    (Recorder.withTaken ["p1"])).1 ⟨["p1"], nestedCalls⟩ _ _ rfl rfl
  have hfaulty := (compileJson_accounted standardCompiler faultyPayload Query.empty).2
    (.fieldNotPath "a b") rfl
  exact ⟨rfl, rfl, hnested, rfl, rfl, hfaulty⟩

end Compiler

end RuleFilter
