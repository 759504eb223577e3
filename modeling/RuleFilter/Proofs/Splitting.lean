import RuleFilter.Proofs.QueryCalls

/-! # Payloads in two halves

Compiling the rules of a payload in two calls, one half after the other, does the same to a query as
compiling them in one. The second call counts its names from zero again, but by then the names of
the first are taken, so it draws what the one call would have drawn (`bindingsOf_append`), and a
query joins filters one by one, whichever call they come from. -/

namespace RuleFilter

/-! ### Labels of the second half -/

theorem Filter.labelAll_congr {taken taken' : List String} {supply supply' : NameSupply}
    {fs : List (Filter Value)}
    (h : (supply'.label taken' (fs.flatMap references)).1 =
      (supply.label taken (fs.flatMap references)).1) :
    (labelAll taken' fs supply').1 = (labelAll taken fs supply).1 := by
  refine eq_of_map_map_eq Prod.snd _ _ ?_ ?_
  · rw [map_snd_labelAll, map_snd_labelAll]
  · rwa [labelAll_references, labelAll_references] at h

namespace Compiler

variable (compiler : Compiler) (taken : List String) (xs ys : List Plan)

/-- **The second half is labelled as if the supply had gone on.** -/
theorem labelled_append :
    compiler.labelled taken (xs ++ ys) =
      compiler.labelled taken xs ++
        compiler.labelled (taken ++ (compiler.bindingsOf taken xs).names) ys := by
  have hbindings : (compiler.bindingsOf taken xs).names =
      (NameSupply.label taken ((Filter.collapseAll xs).flatMap Filter.references)
        (.ofStem compiler.settings.placeholderStem)).1.map Prod.fst := by
    unfold Bindings.names
    rw [bindingsOf_eq, Filter.references_collapseAll]
  have hresume : compiler.labelled (taken ++ (compiler.bindingsOf taken xs).names) ys =
      (Filter.labelAll taken (Filter.collapseAll ys)
        (Filter.labelAll taken (Filter.collapseAll xs)
          (.ofStem compiler.settings.placeholderStem)).2).1 := by
    unfold labelled
    have hsupply := congrArg Prod.snd (Filter.labelAll_references taken (Filter.collapseAll xs)
      (.ofStem compiler.settings.placeholderStem))
    refine Filter.labelAll_congr ?_
    rw [hbindings, ← hsupply]
    -- from zero again, but passing over the names of the first half
    exact NameSupply.label_restart taken _ 0 _ _
  rw [hresume]
  unfold labelled
  rw [Filter.collapseAll_append, Filter.labelAll_append]

theorem filtersOf_append :
    compiler.filtersOf taken (xs ++ ys) =
      compiler.filtersOf taken xs ++
        compiler.filtersOf (taken ++ (compiler.bindingsOf taken xs).names) ys := by
  unfold filtersOf
  rw [labelled_append, List.map_append]

theorem bindingsOf_append :
    compiler.bindingsOf taken (xs ++ ys) =
      compiler.bindingsOf taken xs ++
        compiler.bindingsOf (taken ++ (compiler.bindingsOf taken xs).names) ys := by
  rw [bindingsOf, labelled_append, List.flatMap_append]
  rfl

/-! ### Planning in two halves -/

variable {compiler}

theorem planAll_append : ∀ xs ys : List RuleNode,
    (compiler.planAll (xs ++ ys)).result = (compiler.planAll xs).result >>= fun a =>
      (compiler.planAll ys).result >>= fun b => .ok (a ++ b)
  | [], ys => by
    rw [List.nil_append, planAll_nil]
    cases (compiler.planAll ys).result <;> rfl
  | x :: xs, ys => by
    rw [List.cons_append, result_planAll_cons, result_planAll_cons, planAll_append xs ys]
    cases (compiler.plan x).result with
    | error e => rfl
    | ok first =>
      cases (compiler.planAll xs).result with
      | error e => rfl
      | ok a =>
        cases (compiler.planAll ys).result with
        | error e => rfl
        | ok b => exact congrArg Except.ok (List.append_assoc _ _ _).symm

/-! ### One query -/

/-- **Two plans are delivered one after the other as they are together.** -/
theorem delivered_append (c : Connective) (xs ys : List Plan) (q : Query) :
    compiler.delivered c (xs ++ ys) q = compiler.delivered c ys (compiler.delivered c xs q) := by
  have hfilters := compiler.filtersOf_append q.bindings.names xs ys
  have hbindings := compiler.bindingsOf_append q.bindings.names xs ys
  have hnames := Bindings.names_append q.bindings (compiler.bindingsOf q.bindings.names xs)
  unfold delivered
  rw [hfilters, hbindings, hnames, List.foldl_append, List.append_assoc]

theorem compileNode_append (condition : Option String) (xs ys : List RuleNode) (q : Query) :
    (compiler.compileNode (.group condition (xs ++ ys)) q).result =
      (compiler.compileNode (.group condition xs) q).result >>= fun q₁ =>
        (compiler.compileNode (.group condition ys) q₁).result := by
  simp only [compileNode_query]
  rw [planAll_append]
  cases compiler.connectiveOf condition with
  | error e => rfl
  | ok c =>
    cases (compiler.planAll xs).result with
    | error e => rfl
    | ok a =>
      cases (compiler.planAll ys).result with
      | error e => rfl
      | ok b =>
        exact congrArg Except.ok (delivered_append c a b q)

/-- Whether a compilation succeeds has nothing to do with the names that are taken. -/
theorem calls_succeeds {taken : List String} (taken' : List String) {node : RuleNode}
    {called : List Call} (h : compiler.calls taken node = .ok called) :
    ∃ called', compiler.calls taken' node = .ok called' := by
  cases node with
  | leaf members => exact ⟨[], rfl⟩
  | group condition rules =>
    obtain ⟨c, parts, hc, hp, -⟩ := compiler.calls_group_eq_ok h
    refine ⟨Call.delivery c (compiler.filtersOf taken' parts) (compiler.bindingsOf taken' parts),
      ?_⟩
    rw [calls_group, hc, hp]
    rfl

end Compiler

/-! ### Payloads -/

namespace Json

/-- The member that states the condition of a group, if it has one. -/
def conditionMember (condition : Option Json) : Members :=
  (condition.map fun c => ("condition", c)).toList

/-- A group with these rules, and with a condition if one is given. -/
def ruleGroup (condition : Option Json) (rules : List Json) : Json :=
  .obj (conditionMember condition ++ [("rules", .arr rules)])

end Json

namespace RuleNode

theorem ofItems_append : ∀ xs ys : List Json, ofItems (xs ++ ys) = ofItems xs ++ ofItems ys
  | [], _ => rfl
  | x :: xs, ys => by
    rw [List.cons_append, ofItems, ofItems, ofItems_append xs ys, List.cons_append]

theorem rulesIn_ruleGroup (condition : Option Json) (rules : List Json) :
    rulesIn (Json.conditionMember condition ++ [("rules", .arr rules)]) = ofItems rules := by
  cases condition with
  | none => rfl
  | some c => cases c <;> rfl

theorem conditionIn_ruleGroup (condition : Option Json) (rules : List Json) :
    conditionIn (Json.conditionMember condition ++ [("rules", .arr rules)]) =
      conditionIn (Json.conditionMember condition) := by
  cases condition <;> rfl

/-- A group without rules is a leaf. -/
theorem ofJson_ruleGroup_nil (condition : Option Json) :
    ∃ members, ofJson (Json.ruleGroup condition []) = .leaf members := by
  unfold Json.ruleGroup ofJson
  rw [rulesIn_ruleGroup]
  exact ⟨_, rfl⟩

theorem ofJson_ruleGroup_cons (condition : Option Json) (x : Json) (xs : List Json) :
    ofJson (Json.ruleGroup condition (x :: xs)) =
      .group (conditionIn (Json.conditionMember condition)) (ofItems (x :: xs)) := by
  unfold Json.ruleGroup ofJson
  rw [rulesIn_ruleGroup, conditionIn_ruleGroup]
  rfl

end RuleNode

namespace Compiler

variable (compiler : Compiler) (condition : Option Json)

/-- A payload can be compiled into a query. -/
def Accepts (payload : Json) (q : Query) : Prop :=
  ∃ q', (compiler.compileJson payload q).result = .ok q'

theorem accepts_congr {payload : Json} {q : Query} (q' : Query)
    (h : compiler.Accepts payload q) : compiler.Accepts payload q' := by
  obtain ⟨_, h⟩ := h
  unfold compileJson at h
  rw [compileNode_result] at h
  obtain ⟨called, hcalled, -⟩ := except_map_eq_ok.mp h
  obtain ⟨called', hcalled'⟩ := calls_succeeds (Sink.boundNames q') hcalled
  refine ⟨Sink.receiveAll q' called', ?_⟩
  unfold compileJson
  rw [compileNode_result, hcalled']
  rfl

theorem compileJson_ruleGroup_nil (q : Query) :
    (compiler.compileJson (Json.ruleGroup condition []) q).result = .ok q := by
  obtain ⟨members, hroot⟩ := RuleNode.ofJson_ruleGroup_nil condition
  unfold compileJson
  rw [hroot]
  rfl

theorem compileJson_ruleGroup_append (q : Query) : ∀ xs ys : List Json,
    (compiler.compileJson (Json.ruleGroup condition (xs ++ ys)) q).result =
      (compiler.compileJson (Json.ruleGroup condition xs) q).result >>= fun q₁ =>
        (compiler.compileJson (Json.ruleGroup condition ys) q₁).result
  | [], ys => by
    rw [compileJson_ruleGroup_nil]
    rfl
  | xs, [] => by
    simp only [List.append_nil, compileJson_ruleGroup_nil]
    cases (compiler.compileJson (Json.ruleGroup condition xs) q).result <;> rfl
  | x :: xs, y :: ys => by
    unfold compileJson
    rw [List.cons_append, RuleNode.ofJson_ruleGroup_cons, RuleNode.ofJson_ruleGroup_cons,
      RuleNode.ofJson_ruleGroup_cons, ← compileNode_append, ← RuleNode.ofItems_append,
      List.cons_append]

/-- **A payload may be split**: its rules compile in one call just if both halves do, and then two
calls on the halves, one after the other, leave the very query that the one call leaves. -/
theorem compileJson_split (compiler : Compiler) (condition : Option Json) (xs ys : List Json)
    (q : Query) :
    (compiler.Accepts (Json.ruleGroup condition (xs ++ ys)) q ↔
      compiler.Accepts (Json.ruleGroup condition xs) q ∧
        compiler.Accepts (Json.ruleGroup condition ys) q) ∧
    (compiler.compileJson (Json.ruleGroup condition (xs ++ ys)) q).result =
      (compiler.compileJson (Json.ruleGroup condition xs) q).result >>= fun q₁ =>
        (compiler.compileJson (Json.ruleGroup condition ys) q₁).result := by
  have hsplit := compiler.compileJson_ruleGroup_append condition q xs ys
  refine ⟨⟨?_, ?_⟩, hsplit⟩
  · rintro ⟨q', hq'⟩
    rw [hsplit] at hq'
    obtain ⟨q₁, hxs, hys⟩ := except_bind_eq_ok.mp hq'
    exact ⟨⟨q₁, hxs⟩, compiler.accepts_congr q ⟨q', hys⟩⟩
  · rintro ⟨⟨q₁, hxs⟩, hys⟩
    obtain ⟨q', hq'⟩ := compiler.accepts_congr q₁ hys
    refine ⟨q', ?_⟩
    rw [hsplit, hxs]
    exact hq'

end Compiler

end RuleFilter
