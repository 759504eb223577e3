import RuleFilter.Proofs.Conditions
import RuleFilter.Proofs.Delivery

/-! # Faults

Each node of a rule tree is at fault or not on its own: a group by its condition, a leaf by its
field or its value, if it is a rule at all (`Rule.unusable_iff`). Planning meets the nodes in
document order and stops at the first fault (`errorOf_plan`), so a payload is refused just if one of
its nodes is at fault, and for the fault of the first such node (`compileJson_firstFault`). -/

namespace RuleFilter

/-! ### Leaves that are rules -/

namespace Rule

theorem present_eq_ok_iff {members : Members} {key : RuleKey} {v : Json} :
    present members key = .ok v ↔ members.lookup key.name = some v ∧ v ≠ .null := by
  unfold present
  cases hlookup : members.lookup key.name with
  | none => simp
  | some w => cases w <;> cases v <;> simp

theorem textOf_eq_ok_iff {members : Members} {key : RuleKey} {s : String} :
    textOf members key = .ok s ↔ members.lookup key.name = some (.str s) := by
  unfold textOf
  rw [except_bind_eq_ok]
  constructor
  · rintro ⟨v, hv, h⟩
    rw [present_eq_ok_iff] at hv
    cases v <;> cases h
    exact hv.1
  · intro h
    exact ⟨.str s, present_eq_ok_iff.mpr ⟨h, by simp⟩, rfl⟩

/-- The keys of a rule that have to be texts. -/
def textKeys : List RuleKey :=
  [.field, .type, .input, .operator]

theorem ofMembers_eq_ok_iff {operators : OperatorTable} {members : Members} {rule : Rule} :
    ofMembers operators members = .ok rule ↔
      (members.lookup RuleKey.id.name = some rule.id ∧ rule.id ≠ .null) ∧
      members.lookup RuleKey.field.name = some (.str rule.field) ∧
      members.lookup RuleKey.type.name = some (.str rule.type) ∧
      members.lookup RuleKey.input.name = some (.str rule.input) ∧
      members.lookup RuleKey.operator.name = some (.str rule.operator) ∧
      members.lookup RuleKey.value.name = some rule.value ∧
      operators.contains rule.operator = true := by
  unfold ofMembers
  simp only [except_bind_eq_ok, present_eq_ok_iff, textOf_eq_ok_iff]
  constructor
  · rintro ⟨id, hid, field, hfield, type, htype, input, hinput, operator, hoperator, h⟩
    cases hvalue : members.lookup RuleKey.value.name with
    | none => simp [hvalue] at h
    | some value =>
      simp only [hvalue] at h
      split_ifs at h with hknown
      cases h
      exact ⟨hid, hfield, htype, hinput, hoperator, rfl, hknown⟩
  · rintro ⟨hid, hfield, htype, hinput, hoperator, hvalue, hknown⟩
    refine ⟨_, hid, _, hfield, _, htype, _, hinput, _, hoperator, ?_⟩
    simp only [hvalue, hknown, if_true]

/-- A leaf that is no rule: no object, or an object that lacks an identifier, the text of a key that
has to be one, a value, or an operator of the table. A null counts as missing but for the value. -/
def Unusable (operators : OperatorTable) : Option Members → Prop
  | none => True
  | some members =>
    (members.lookup RuleKey.id.name = none ∨ members.lookup RuleKey.id.name = some .null) ∨
      (∃ key ∈ textKeys, ∀ s, members.lookup key.name ≠ some (.str s)) ∨
      members.lookup RuleKey.value.name = none ∨
      ∃ name, members.lookup RuleKey.operator.name = some (.str name) ∧
        operators.contains name = false

/-- A rule has all of its keys. -/
theorem not_unusable {operators : OperatorTable} {members : Members} {rule : Rule}
    (h : ofMembers operators members = .ok rule) : ¬ Unusable operators (some members) := by
  obtain ⟨⟨hid, hnull⟩, hfield, htype, hinput, hoperator, hvalue, hknown⟩ :=
    ofMembers_eq_ok_iff.mp h
  rintro ((hmissing | hmissing) | ⟨key, hkey, hmissing⟩ | hmissing | ⟨name, hname, hunknown⟩)
  · rw [hid] at hmissing
    cases hmissing
  · rw [hid] at hmissing
    exact hnull (Option.some.inj hmissing)
  · simp only [textKeys, List.mem_cons, List.not_mem_nil, or_false] at hkey
    rcases hkey with rfl | rfl | rfl | rfl
    · exact hmissing _ hfield
    · exact hmissing _ htype
    · exact hmissing _ hinput
    · exact hmissing _ hoperator
  · rw [hvalue] at hmissing
    cases hmissing
  · rw [hoperator] at hname
    cases hname
    rw [hknown] at hunknown
    cases hunknown

/-- An object with all keys of a rule is one. -/
theorem exists_rule {operators : OperatorTable} {members : Members}
    (h : ¬ Unusable operators (some members)) : ∃ rule, ofMembers operators members = .ok rule := by
  unfold Unusable at h
  push Not at h
  obtain ⟨⟨hsome, hnull⟩, htexts, hvalue, hknown⟩ := h
  obtain ⟨id, hid⟩ := Option.ne_none_iff_exists'.mp hsome
  obtain ⟨field, hfield⟩ := htexts .field (by decide)
  obtain ⟨type, htype⟩ := htexts .type (by decide)
  obtain ⟨input, hinput⟩ := htexts .input (by decide)
  obtain ⟨operator, hoperator⟩ := htexts .operator (by decide)
  obtain ⟨value, hvalue⟩ := Option.ne_none_iff_exists'.mp hvalue
  refine ⟨⟨id, field, type, input, operator, value⟩, ofMembers_eq_ok_iff.mpr ?_⟩
  refine ⟨⟨hid, ?_⟩, hfield, htype, hinput, hoperator, hvalue, ?_⟩
  · rintro rfl
    exact hnull hid
  · simpa using hknown operator hoperator

/-- **A leaf is a rule or unusable.** -/
theorem unusable_iff {operators : OperatorTable} {members : Option Members} :
    Unusable operators members ↔ ∃ reason, ofLeaf operators members = .error reason := by
  cases members with
  | none => simp [Unusable, ofLeaf]
  | some members =>
    show _ ↔ ∃ reason, ofMembers operators members = .error reason
    constructor
    · intro h
      cases hrule : ofMembers operators members with
      | error reason => exact ⟨reason, rfl⟩
      | ok rule => exact absurd h (not_unusable hrule)
    · rintro ⟨reason, hreason⟩
      by_contra h
      obtain ⟨rule, hrule⟩ := exists_rule h
      rw [hreason] at hrule
      cases hrule

end Rule

/-! ### The fault of a node -/

namespace RuleNode

mutual

/-- A node and all nodes inside it, in document order: a group before its rules. -/
def visited : RuleNode → List RuleNode
  | .leaf members => [.leaf members]
  | .group condition rules => .group condition rules :: visitedAll rules

/-- All nodes of several, in document order. -/
def visitedAll : List RuleNode → List RuleNode
  | [] => []
  | node :: rest => node.visited ++ visitedAll rest

end

end RuleNode

namespace Compiler

variable (compiler : Compiler)

/-- The fields that may stand in SQL text: the listed ones or, without a list, all paths. -/
def Allows (field : String) : Prop :=
  match compiler.fields with
  | some list => field ∈ list.names
  | none => Identifier.isPath field = true

/-- What is wrong with a node itself, whatever stands around it or inside. -/
inductive Fault : RuleNode → CompileError → Prop where
  | condition {text : String} {rules : List RuleNode} (unread : Connective.read? text = none) :
      Fault (.group (some text) rules) (.unknownCondition text)
  | unlisted {members : Option Members} {rule : Rule} {list : FieldList}
      (valid : Rule.ofLeaf compiler.operators members = .ok rule)
      (given : compiler.fields = some list) (unlisted : rule.field ∉ list.names) :
      Fault (.leaf members) (.fieldNotListed rule.field)
  | notPath {members : Option Members} {rule : Rule}
      (valid : Rule.ofLeaf compiler.operators members = .ok rule)
      (given : compiler.fields = none) (notPath : Identifier.isPath rule.field = false) :
      Fault (.leaf members) (.fieldNotPath rule.field)
  | value {members : Option Members} {rule : Rule} {e : CompileError}
      (valid : Rule.ofLeaf compiler.operators members = .ok rule)
      (allowed : compiler.Allows rule.field)
      (unfit : rule.coerce compiler.operators compiler.settings = .error e) :
      Fault (.leaf members) e

/-- The fault that a node has in a plan. -/
def faultOf? : RuleNode → Option CompileError
  | .leaf members =>
    match Rule.ofLeaf compiler.operators members with
    | .error _ => none
    | .ok rule => errorOf (compiler.comparison rule)
  | .group condition _ => errorOf (compiler.connectiveOf condition)

variable {compiler}

theorem checkField_eq (field : String) :
    compiler.checkField field =
      match compiler.fields with
      | some list => if field ∈ list.names then .ok () else .error (.fieldNotListed field)
      | none => if Identifier.isPath field then .ok () else .error (.fieldNotPath field) := by
  unfold checkField FieldList.check
  cases compiler.fields with
  | none =>
    cases hpath : Identifier.isPath field <;> rfl
  | some list =>
    have hcontains : list.contains field = true ↔ field ∈ list.names := List.contains_iff_mem
    by_cases hmem : field ∈ list.names
    · simp only [hcontains.mpr hmem, hmem, if_true]
      rfl
    · simp only [mt hcontains.mp hmem, hmem, if_false]
      rfl

/-- **What coercion lets through is compared.** -/
theorem compare_of_coerce {rule : Rule} {o : Operator} {argument : Argument}
    (h : rule.coerce compiler.operators compiler.settings = .ok (o, argument)) :
    ∃ p, o.compare rule.field argument = .ok p := by
  obtain ⟨operand, hoperand⟩ := exists_operand_of_argument (coerce_eq_ok h).2
  unfold Operator.compare
  rw [hoperand]
  exact ⟨_, rfl⟩

/-- The error of a comparison is that of its field or else that of its value. -/
theorem errorOf_comparison (rule : Rule) :
    errorOf (compiler.comparison rule) = (errorOf (compiler.checkField rule.field)).or
      (errorOf (rule.coerce compiler.operators compiler.settings)) := by
  unfold comparison
  refine errorOf_bind fun _ _ => ?_
  refine (errorOf_bind ?_).trans Option.or_none
  rintro ⟨o, argument⟩ hc
  exact errorOf_eq_none_iff.mpr (compare_of_coerce hc)

theorem errorOf_checkField_eq_none_iff (field : String) :
    errorOf (compiler.checkField field) = none ↔ compiler.Allows field := by
  rw [checkField_eq]
  unfold Allows
  cases compiler.fields with
  | none => by_cases h : Identifier.isPath field = true <;> simp [h]
  | some list => by_cases h : field ∈ list.names <;> simp [h]

theorem faultOf?_leaf (members : Option Members) {rule : Rule}
    (h : Rule.ofLeaf compiler.operators members = .ok rule) :
    compiler.faultOf? (.leaf members) = (errorOf (compiler.checkField rule.field)).or
      (errorOf (rule.coerce compiler.operators compiler.settings)) := by
  rw [← errorOf_comparison]
  simp only [faultOf?, h]

theorem fault_of_leaf {members : Option Members} {rule : Rule} {e : CompileError}
    (valid : Rule.ofLeaf compiler.operators members = .ok rule)
    (h : compiler.faultOf? (.leaf members) = some e) : compiler.Fault (.leaf members) e := by
  rw [faultOf?_leaf members valid, Option.or_eq_some_iff] at h
  rcases h with h | ⟨hallowed, h⟩
  · rw [errorOf_eq_some_iff, checkField_eq] at h
    cases hfields : compiler.fields with
    | none =>
      simp only [hfields] at h
      split_ifs at h with hpath
      cases h
      exact .notPath valid hfields (by simpa using hpath)
    | some list =>
      simp only [hfields] at h
      split_ifs at h with hlisted
      cases h
      exact .unlisted valid hfields hlisted
  · exact .value valid ((errorOf_checkField_eq_none_iff _).mp hallowed) (errorOf_eq_some_iff.mp h)

/-- **The fault of a node is the one that planning meets there.** -/
theorem faultOf?_eq_some_iff {node : RuleNode} {e : CompileError} :
    compiler.faultOf? node = some e ↔ compiler.Fault node e := by
  constructor
  · intro h
    cases node with
    | group condition rules =>
      cases condition with
      | none => cases h
      | some text =>
        unfold faultOf? connectiveOf at h
        cases hread : Connective.read? text with
        | some c => simp [hread] at h
        | none =>
          simp only [hread, errorOf_eq_some_iff] at h
          cases h
          exact .condition hread
    | leaf members =>
      cases hvalid : Rule.ofLeaf compiler.operators members with
      | error reason => simp [faultOf?, hvalid] at h
      | ok rule => exact fault_of_leaf hvalid h
  · intro h
    cases h with
    | condition unread => simp [faultOf?, connectiveOf, unread]
    | unlisted valid given unlisted =>
      rw [faultOf?_leaf _ valid, checkField_eq, given]
      simp [unlisted]
    | notPath valid given notPath =>
      rw [faultOf?_leaf _ valid, checkField_eq, given]
      simp [notPath]
    | value valid allowed unfit =>
      rw [faultOf?_leaf _ valid, (errorOf_checkField_eq_none_iff _).mpr allowed, unfit]
      rfl

/-! ### The first fault -/

theorem errorOf_plan_leaf (members : Option Members) :
    errorOf (compiler.plan (.leaf members)).result = compiler.faultOf? (.leaf members) := by
  simp only [plan, planLeaf, faultOf?]
  cases Rule.ofLeaf compiler.operators members with
  | error reason => rfl
  | ok rule =>
    simp only [Traced.result_bind, Traced.result_lift, Traced.result_pure]
    exact errorOf_bind_ok _ _

theorem result_plan_group (condition : Option String) (rules : List RuleNode) :
    (compiler.plan (.group condition rules)).result =
      compiler.connectiveOf condition >>= fun c =>
        (compiler.planAll rules).result.map fun parts => some (.group c parts) := by
  simp only [plan, Traced.result_bind, Traced.result_lift, Traced.result_tell, Traced.result_pure]
  rfl

mutual

/-- **Planning stops at the first fault in document order.** -/
theorem errorOf_plan : ∀ node : RuleNode,
    errorOf (compiler.plan node).result = node.visited.findSome? compiler.faultOf?
  | .leaf members => by
    rw [errorOf_plan_leaf, RuleNode.visited, List.findSome?_singleton]
  | .group condition rules => by
    rw [result_plan_group, errorOf_bind fun c _ => errorOf_map _ _, errorOf_planAll rules,
      RuleNode.visited, ← List.singleton_append, List.findSome?_append, List.findSome?_singleton]
    rfl

theorem errorOf_planAll : ∀ rules : List RuleNode,
    errorOf (compiler.planAll rules).result =
      (RuleNode.visitedAll rules).findSome? compiler.faultOf?
  | [] => rfl
  | node :: rest => by
    have hrest : ∀ first : Option Plan,
        errorOf ((compiler.planAll rest).result >>= fun others => .ok (first.toList ++ others)) =
          errorOf (compiler.planAll rest).result :=
      fun first => errorOf_bind_ok _ _
    rw [result_planAll_cons, errorOf_bind fun first _ => hrest first, errorOf_plan node,
      errorOf_planAll rest, RuleNode.visitedAll, List.findSome?_append]

end

/-! ### Operators of rules -/

/-- The operator of a rule is in the table. -/
theorem exists_operator {members : Option Members} {rule : Rule}
    (valid : Rule.ofLeaf compiler.operators members = .ok rule) :
    ∃ o, compiler.operators.find? rule.operator = some o := by
  cases members with
  | none => cases valid
  | some members =>
    obtain ⟨-, -, -, -, -, -, hknown⟩ := Rule.ofMembers_eq_ok_iff.mp valid
    exact Option.isSome_iff_exists.mp hknown

/-- **No operator of a rule is unknown**, since a leaf whose operator is not in the table is no
rule. -/
theorem not_fault_unknownOperator {node : RuleNode} {field operator : String} :
    ¬ compiler.Fault node (.unknownOperator field operator) := by
  intro h
  cases h with
  | value valid _ unfit =>
    obtain ⟨o, ho⟩ := exists_operator valid
    unfold Rule.coerce at unfit
    simp only [ho] at unfit
    cases valueError_of_argument (except_map_eq_error.mp unfit)

/-! ### Conditions of groups -/

/-- A group is at fault just if it states a condition that is no connective. -/
theorem fault_group_iff {members : Members} {rules : List RuleNode} {e : CompileError} :
    compiler.Fault (.group (RuleNode.conditionIn members) rules) e ↔
      ∃ v, members.lookup "condition" = some v ∧ v ≠ .null ∧
        ((∃ s, v = .str s ∧ Connective.read? s = none ∧ e = .unknownCondition s) ∨
          (∀ s, v ≠ .str s) ∧ e = .unknownCondition v.text) := by
  unfold RuleNode.conditionIn
  constructor
  · intro h
    cases hv : members.lookup "condition" with
    | none =>
      rw [hv] at h
      cases h
    | some v =>
      rw [hv] at h
      refine ⟨v, rfl, ?_⟩
      cases v with
      | null => cases h
      | str s =>
        cases h with
        | condition unread => exact ⟨by simp, Or.inl ⟨s, rfl, unread, rfl⟩⟩
      | _ =>
        cases h
        exact ⟨by simp, Or.inr ⟨by simp, rfl⟩⟩
  · rintro ⟨v, hv, hnull, ⟨s, rfl, hs, rfl⟩ | ⟨hother, rfl⟩⟩
    · rw [hv]
      exact .condition hs
    · rw [hv]
      have hunread := Connective.read?_text hother
      cases v with
      | null => exact absurd rfl hnull
      | str s => exact absurd rfl (hother s)
      | _ => exact .condition hunread

/-! ### Payloads -/

variable (compiler)

/-- An error is that of the first node of a rule tree that is at fault, in document order. A tree
that is no group has no faults. -/
def FirstFault (root : RuleNode) (e : CompileError) : Prop :=
  (∃ condition rules, root = .group condition rules) ∧
    ∃ before node after, root.visited = before ++ node :: after ∧
      (∀ earlier ∈ before, ∀ e', ¬ compiler.Fault earlier e') ∧ compiler.Fault node e

variable {compiler}

theorem faultOf?_eq_none_iff {node : RuleNode} :
    compiler.faultOf? node = none ↔ ∀ e, ¬ compiler.Fault node e := by
  rw [Option.eq_none_iff_forall_ne_some]
  exact forall_congr' fun e => not_congr faultOf?_eq_some_iff

theorem firstFault_group_iff {condition : Option String} {rules : List RuleNode}
    {e : CompileError} :
    compiler.FirstFault (.group condition rules) e ↔
      (RuleNode.group condition rules).visited.findSome? compiler.faultOf? = some e := by
  rw [List.findSome?_eq_some_iff]
  unfold FirstFault
  simp only [faultOf?_eq_some_iff, faultOf?_eq_none_iff]
  constructor
  · rintro ⟨-, before, node, after, hvisited, hbefore, hnode⟩
    exact ⟨before, node, after, hvisited, hnode, hbefore⟩
  · rintro ⟨before, node, after, hvisited, hnode, hbefore⟩
    exact ⟨⟨condition, rules, rfl⟩, before, node, after, hvisited, hbefore, hnode⟩

/-- **A rule tree is refused for its first fault**, whatever the sink. -/
theorem compileNode_eq_error_iff {σ : Type} [Sink σ] (node : RuleNode) (sink : σ)
    (e : CompileError) :
    (compiler.compileNode node sink).result = .error e ↔ compiler.FirstFault node e := by
  cases node with
  | leaf members =>
    constructor
    · intro h
      cases h
    · rintro ⟨⟨condition, rules, h⟩, -⟩
      cases h
  | group condition rules =>
    have hcalls : errorOf (compiler.calls (Sink.boundNames sink) (.group condition rules)) =
        errorOf (compiler.plan (.group condition rules)).result := by
      rw [calls_group, result_plan_group, errorOf_bind fun c _ => errorOf_bind_ok _ _,
        errorOf_bind fun c _ => errorOf_map _ _]
    rw [firstFault_group_iff, ← errorOf_plan, ← hcalls, ← errorOf_eq_some_iff, compileNode_result,
      errorOf_map]

theorem exists_firstFault_iff {root : RuleNode} :
    (∃ e, compiler.FirstFault root e) ↔
      (∃ condition rules, root = .group condition rules) ∧
        ∃ node ∈ root.visited, ∃ e, compiler.Fault node e := by
  cases root with
  | leaf members =>
    constructor
    · rintro ⟨e, hroot, -⟩
      exact absurd hroot (by simp)
    · rintro ⟨hroot, -⟩
      exact absurd hroot (by simp)
  | group condition rules =>
    simp only [firstFault_group_iff, ← Option.isSome_iff_exists, List.findSome?_isSome_iff]
    simp only [Option.isSome_iff_exists, faultOf?_eq_some_iff]
    constructor
    · intro h
      exact ⟨⟨condition, rules, rfl⟩, h⟩
    · rintro ⟨-, h⟩
      exact h

/-- A leaf adds nothing to a plan just if it is unusable. -/
theorem plan_leaf_eq_none_iff (members : Option Members) :
    (compiler.plan (.leaf members)).result = .ok none ↔
      Rule.Unusable compiler.operators members := by
  rw [Rule.unusable_iff]
  constructor
  · intro h
    rcases plan_leaf_eq_ok h with ⟨reason, hleaf, -⟩ | ⟨rule, p, -, -, hpart⟩
    · exact ⟨reason, hleaf⟩
    · cases hpart
  · rintro ⟨reason, hreason⟩
    simp only [plan, planLeaf, hreason]
    rfl

/-- **What becomes of a payload.** It is refused just if it is a group and one of its nodes is at
fault, and for the fault of the first of these in document order, whatever the sink. A group is at
fault for the condition that it states. A leaf is left out just if it is unusable; any other is at
fault for its field or else its value. What coercion lets through is compared, and an unknown
operator is never an error. -/
theorem compileJson_firstFault {σ : Type} [Sink σ] (compiler : Compiler) (payload : Json)
    (sink : σ) :
    (∀ e, (compiler.compileJson payload sink).result = .error e ↔
      compiler.FirstFault (.ofJson payload) e) ∧
    ((∃ e, (compiler.compileJson payload sink).result = .error e) ↔
      (∃ condition rules, RuleNode.ofJson payload = .group condition rules) ∧
        ∃ node ∈ (RuleNode.ofJson payload).visited, ∃ e, compiler.Fault node e) ∧
    (∀ members rules e, compiler.Fault (.group (RuleNode.conditionIn members) rules) e ↔
      ∃ v, members.lookup "condition" = some v ∧ v ≠ .null ∧
        ((∃ s, v = .str s ∧ Connective.read? s = none ∧ e = .unknownCondition s) ∨
          (∀ s, v ≠ .str s) ∧ e = .unknownCondition v.text)) ∧
    (∀ members, (compiler.plan (.leaf members)).result = .ok none ↔
      Rule.Unusable compiler.operators members) ∧
    (∀ (rule : Rule) (o : Operator) (argument : Argument),
      rule.coerce compiler.operators compiler.settings = .ok (o, argument) →
        ∃ p, o.compare rule.field argument = .ok p) ∧
    ∀ field operator, (compiler.compileJson payload sink).result ≠
      .error (.unknownOperator field operator) := by
  have hrefused : ∀ e, (compiler.compileJson payload sink).result = .error e ↔
      compiler.FirstFault (.ofJson payload) e := compileNode_eq_error_iff (.ofJson payload) sink
  refine ⟨hrefused, ?_, fun members rules e => fault_group_iff, plan_leaf_eq_none_iff,
    fun rule o argument h => compare_of_coerce h, fun field operator h => ?_⟩
  · rw [← exists_firstFault_iff]
    exact exists_congr hrefused
  · obtain ⟨-, before, node, after, -, -, hnode⟩ := (hrefused _).mp h
    exact not_fault_unknownOperator hnode

/-- The condition of a group comes before its rules, whatever is wrong with these, and a leaf with
an operator that is not in the table is at fault for nothing. -/
example : (standardCompiler.compileJson (.obj [("rules", .arr
    [textRule "c;" "no_such_operator" .null,
      .obj [("condition", .num (.int 1)), ("rules", .arr [textRule "c;" "equal" .null])],
      textRule "a b" "equal" .null])]) Query.empty).result = .error (.unknownCondition "1") :=
  rfl

end Compiler

end RuleFilter
