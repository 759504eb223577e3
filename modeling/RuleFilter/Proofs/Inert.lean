import RuleFilter.Proofs.Faults
import RuleFilter.Proofs.Idle

/-! # Inert nodes

A node is inert if no comparison comes from it and nothing about it is an error: a leaf that is no
rule, or a group of such nodes under a condition that can be read. What counts for the calls of a
payload is what remains of its plan once the empty groups have vanished (`calls_congr`). Nothing
remains of an inert node (`remains_of_inert`), so it may be put among the rules of any group, at any
depth, and no call and no error is different for it (`compileJson_inserted`). -/

namespace RuleFilter

/-- A node without a rule, in which every condition is missing or a connective. -/
inductive RuleNode.Inert (operators : OperatorTable) : RuleNode → Prop where
  | leaf {members : Option Members} {reason : RuleSkip}
      (skipped : Rule.ofLeaf operators members = .error reason) : Inert operators (.leaf members)
  | group {condition : Option String} {rules : List RuleNode}
      (readable : ∀ text, condition = some text → ∃ c, Connective.read? text = some c)
      (inside : ∀ node ∈ rules, Inert operators node) : Inert operators (.group condition rules)

/-! ### What remains of a node -/

namespace Compiler

variable (compiler : Compiler)

/-- What remains of the plan of a node: one filter, or none if it holds no rule. -/
def remains (node : RuleNode) : Except CompileError (List Plan) :=
  (compiler.plan node).result.map fun part => Filter.collapseAll part.toList

/-- What remains of the plans of several nodes. -/
def remainsOfAll (rules : List RuleNode) : Except CompileError (List Plan) :=
  (compiler.planAll rules).result.map Filter.collapseAll

theorem remainsOfAll_cons (node : RuleNode) (rest : List RuleNode) :
    compiler.remainsOfAll (node :: rest) =
      compiler.remains node >>= fun first =>
        (compiler.remainsOfAll rest).map (first ++ ·) := by
  unfold remainsOfAll remains
  rw [result_planAll_cons]
  cases (compiler.plan node).result with
  | error e => rfl
  | ok part =>
    cases (compiler.planAll rest).result with
    | error e => rfl
    | ok parts => exact congrArg Except.ok (Filter.collapseAll_append _ _)

/-- A group comes down to what remains of its rules, joined. -/
theorem remains_group (condition : Option String) (rules : List RuleNode) :
    compiler.remains (.group condition rules) =
      compiler.connectiveOf condition >>= fun c =>
        (compiler.remainsOfAll rules).map fun fs => (Filter.join? c fs).toList := by
  unfold remains remainsOfAll
  rw [result_plan_group]
  cases compiler.connectiveOf condition with
  | error e => rfl
  | ok c =>
    cases (compiler.planAll rules).result with
    | error e => rfl
    | ok parts => exact congrArg Except.ok (Filter.collapseAll_group c parts)

/-- A condition that is missing or read is no error. -/
theorem exists_connectiveOf {condition : Option String}
    (h : ∀ text, condition = some text → ∃ c, Connective.read? text = some c) :
    ∃ c, compiler.connectiveOf condition = .ok c := by
  cases condition with
  | none => exact ⟨compiler.settings.defaultCondition, rfl⟩
  | some text =>
    obtain ⟨c, hc⟩ := h text rfl
    refine ⟨c, ?_⟩
    unfold connectiveOf
    simp only [hc]

variable {compiler}

theorem remainsOfAll_of_forall : ∀ {rules : List RuleNode},
    (∀ node ∈ rules, compiler.remains node = .ok []) → compiler.remainsOfAll rules = .ok []
  | [], _ => rfl
  | node :: rest, h => by
    have hrest := remainsOfAll_of_forall fun n hn => h n (List.mem_cons_of_mem _ hn)
    rw [remainsOfAll_cons, h node List.mem_cons_self, hrest]
    rfl

/-- **Nothing remains of an inert node**, and nothing about it is an error. -/
theorem remains_of_inert {node : RuleNode} (h : node.Inert compiler.operators) :
    compiler.remains node = .ok [] := by
  induction h with
  | leaf skipped =>
    unfold remains plan planLeaf
    rw [skipped]
    rfl
  | group readable _ ih =>
    obtain ⟨c, hc⟩ := compiler.exists_connectiveOf readable
    rw [remains_group, hc, remainsOfAll_of_forall ih]
    rfl

/-! ### A node among others -/

/-- A node of which nothing remains may stand anywhere. -/
theorem remainsOfAll_insert {node : RuleNode} (h : compiler.remains node = .ok []) :
    ∀ xs ys : List RuleNode,
      compiler.remainsOfAll (xs ++ node :: ys) = compiler.remainsOfAll (xs ++ ys)
  | [], ys => by
    rw [List.nil_append, List.nil_append, remainsOfAll_cons, h]
    cases compiler.remainsOfAll ys <;> rfl
  | x :: xs, ys => by
    rw [List.cons_append, List.cons_append, remainsOfAll_cons, remainsOfAll_cons,
      remainsOfAll_insert h xs ys]

/-- A node may be exchanged for one of which the same remains. -/
theorem remainsOfAll_exchange {node node' : RuleNode}
    (h : compiler.remains node' = compiler.remains node) : ∀ xs ys : List RuleNode,
      compiler.remainsOfAll (xs ++ node' :: ys) = compiler.remainsOfAll (xs ++ node :: ys)
  | [], ys => by
    rw [List.nil_append, List.nil_append, remainsOfAll_cons, remainsOfAll_cons, h]
  | x :: xs, ys => by
    rw [List.cons_append, List.cons_append, remainsOfAll_cons, remainsOfAll_cons,
      remainsOfAll_exchange h xs ys]

/-- **The calls of a payload hang on what remains of its rules.** -/
theorem calls_congr {rules rules' : List RuleNode} (taken : List String)
    (condition : Option String)
    (h : compiler.remainsOfAll rules' = compiler.remainsOfAll rules) :
    compiler.calls taken (.group condition rules') =
      compiler.calls taken (.group condition rules) := by
  have hcalls (rs : List RuleNode) : compiler.calls taken (.group condition rs) =
      compiler.connectiveOf condition >>= fun c => (compiler.remainsOfAll rs).map fun fs =>
        let labelled := (Filter.labelAll taken fs (.ofStem compiler.settings.placeholderStem)).1
        Call.delivery c (labelled.map (Filter.map Prod.fst))
          (labelled.flatMap Filter.references) := by
    rw [calls_group]
    unfold remainsOfAll
    cases (compiler.planAll rs).result <;> rfl
  rw [hcalls, hcalls, h]

end Compiler

/-! ### Documents -/

namespace Json

/-- An object with an array of rules. -/
def withRules (before : Members) (rules : List Json) (after : Members) : Json :=
  .obj (before ++ ("rules", .arr rules) :: after)

/-- A document with an item more among the rules of one of its groups. -/
inductive Inserted (item : Json) : Json → Json → Prop where
  | here {before after : Members} {xs ys : List Json} (first : "rules" ∉ before.map Prod.fst)
      (group : xs ++ ys ≠ []) :
      Inserted item (withRules before (xs ++ ys) after) (withRules before (xs ++ item :: ys) after)
  | inside {before after : Members} {xs ys : List Json} {child child' : Json}
      (first : "rules" ∉ before.map Prod.fst) (deeper : Inserted item child child') :
      Inserted item (withRules before (xs ++ child :: ys) after)
        (withRules before (xs ++ child' :: ys) after)

end Json

namespace RuleNode

theorem rulesIn_append {before : Members} (h : "rules" ∉ before.map Prod.fst) (rest : Members) :
    rulesIn (before ++ rest) = rulesIn rest := by
  induction before with
  | nil => rfl
  | cons member before ih =>
    obtain ⟨key, value⟩ := member
    rw [List.map_cons, List.mem_cons, not_or] at h
    have hkey : key ≠ "rules" := fun heq => h.1 heq.symm
    rw [List.cons_append, ← ih h.2]
    cases value <;> simp [rulesIn, hkey]

/-- The rules of a group are no condition. -/
theorem conditionIn_rules (before after : Members) (rules : List Json) :
    conditionIn (before ++ ("rules", .arr rules) :: after) = conditionIn (before ++ after) := by
  have hlookup : List.lookup "condition" (before ++ ("rules", .arr rules) :: after) =
      List.lookup "condition" (before ++ after) := by
    rw [List.lookup_append, List.lookup_append]
    rfl
  unfold conditionIn
  rw [hlookup]

theorem ofJson_withRules {before : Members} (h : "rules" ∉ before.map Prod.fst)
    {items : List Json} (hitems : items ≠ []) (after : Members) :
    ofJson (.withRules before items after) =
      .group (conditionIn (before ++ after)) (ofItems items) := by
  obtain ⟨item, rest, rfl⟩ := List.exists_cons_of_ne_nil hitems
  unfold Json.withRules ofJson
  rw [rulesIn_append h, conditionIn_rules]
  rfl

end RuleNode

namespace Compiler

variable {compiler : Compiler}

/-- **An inert item leaves no trace in a group**: of the rules with it there remains what remains of
the rules without it. -/
theorem remainsOfAll_inserted {item doc doc' : Json} (hinserted : Json.Inserted item doc doc')
    (hinert : (RuleNode.ofJson item).Inert compiler.operators) :
    ∃ condition rules rules', RuleNode.ofJson doc = .group condition rules ∧
      RuleNode.ofJson doc' = .group condition rules' ∧
      compiler.remainsOfAll rules' = compiler.remainsOfAll rules := by
  -- the induction goes down to the group; from outside it is one rule, and only its remains count
  induction hinserted with
  | @here before after xs ys first group =>
    refine ⟨_, _, _, RuleNode.ofJson_withRules first group after,
      RuleNode.ofJson_withRules first (by simp) after, ?_⟩
    rw [RuleNode.ofItems_append, RuleNode.ofItems_append]
    exact remainsOfAll_insert (remains_of_inert hinert) _ _
  | @inside before after xs ys child child' first _ ih =>
    obtain ⟨condition, rules, rules', hchild, hchild', hrules⟩ := ih
    have hremains : compiler.remains (RuleNode.ofJson child') =
        compiler.remains (RuleNode.ofJson child) := by
      rw [hchild, hchild', remains_group, remains_group, hrules]
    refine ⟨_, _, _, RuleNode.ofJson_withRules first (by simp) after,
      RuleNode.ofJson_withRules first (by simp) after, ?_⟩
    rw [RuleNode.ofItems_append, RuleNode.ofItems_append]
    exact remainsOfAll_exchange hremains _ _

/-- **An inert item is invisible.** Put among the rules of any group of a payload, at any depth and
any place, it changes neither the result of a compilation, be it a sink or an error, nor any of the
calls that are made. -/
theorem compileJson_inserted {σ : Type} [Sink σ] (compiler : Compiler) {item doc doc' : Json}
    (hinserted : Json.Inserted item doc doc')
    (hinert : (RuleNode.ofJson item).Inert compiler.operators) (sink : σ) :
    (compiler.compileJson doc' sink).result = (compiler.compileJson doc sink).result ∧
      ∀ called, compiler.Makes doc' sink called ↔ compiler.Makes doc sink called := by
  obtain ⟨condition, rules, rules', hdoc, hdoc', hrules⟩ := remainsOfAll_inserted hinserted hinert
  have hcalls : compiler.calls (Sink.boundNames sink) (.ofJson doc') =
      compiler.calls (Sink.boundNames sink) (.ofJson doc) := by
    rw [hdoc, hdoc']
    exact calls_congr (Sink.boundNames sink) condition hrules
  constructor
  · unfold compileJson
    rw [compileNode_result, compileNode_result, hcalls]
  · intro called
    rw [makes_iff, makes_iff, hcalls]

/-- A group of one rule and further items. -/
def anyOf (items : List Json) : Json :=
  .obj [("rules", .arr (textRule "b" "in" (.str "x, y") :: items)), ("condition", .str "or")]

/-- A rule, and a group of one rule and further items. -/
def payloadWith (items : List Json) : Json :=
  .obj [("condition", .str "and"), ("rules", .arr
    [textRule "a" "equal" (.num (.int 1)), anyOf items])]

/-- A group of an item that is no object and of a group of a rule with an unknown operator. -/
def inertItem : Json :=
  .obj [("condition", .null), ("rules", .arr
    [.bool true, .obj [("condition", .str "Or"),
      ("rules", .arr [textRule "c;" "no_such_operator" .null])]])]

theorem compileJson_inserted_inertItem :
    Json.Inserted inertItem (payloadWith []) (payloadWith [inertItem]) ∧
      (RuleNode.ofJson inertItem).Inert standardCompiler.operators ∧
      standardCompiler.Makes (payloadWith []) (Recorder.withTaken ["p1"])
        [.add .and (.leaf ⟨"a", .equal, .single "p0"⟩),
          .add .and (.leaf ⟨"b", .isIn, .list ["p2", "p3"]⟩),
          .bind "p0" (.int 1), .bind "p2" (.text "x"), .bind "p3" (.text "y")] ∧
      (standardCompiler.compileJson (payloadWith [inertItem]) (Recorder.withTaken ["p1"])).result =
        (standardCompiler.compileJson (payloadWith []) (Recorder.withTaken ["p1"])).result ∧
      ∀ called, standardCompiler.Makes (payloadWith [inertItem]) (Recorder.withTaken ["p1"])
          called ↔
        standardCompiler.Makes (payloadWith []) (Recorder.withTaken ["p1"]) called := by
  have hinner : Json.Inserted inertItem (anyOf []) (anyOf [inertItem]) :=
    @Json.Inserted.here _ [] _ [textRule "b" "in" (.str "x, y")] [] (by decide) (by simp)
  have hinserted : Json.Inserted inertItem (payloadWith []) (payloadWith [inertItem]) :=
    @Json.Inserted.inside _ [("condition", .str "and")] [] [textRule "a" "equal" (.num (.int 1))]
      [] _ _ (by decide) hinner
  have hinert : (RuleNode.ofJson inertItem).Inert standardCompiler.operators := by
    refine .group (fun text h => by cases h) (List.forall_mem_cons.mpr ⟨.leaf rfl, ?_⟩)
    refine List.forall_mem_singleton.mpr (.group ?_ (List.forall_mem_singleton.mpr (.leaf rfl)))
    intro text h
    cases h
    exact ⟨.or, rfl⟩
  exact ⟨hinserted, hinert, ⟨rfl, rfl⟩, compileJson_inserted standardCompiler hinserted hinert _⟩

end Compiler

end RuleFilter
