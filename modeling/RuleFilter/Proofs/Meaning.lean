import RuleFilter.Proofs.QueryCalls
import RuleFilter.Proofs.Truth

/-! # The meaning of a payload

A rule tree has a meaning of its own, whatever is compiled from it: that of a rule is the truth of
its comparison, and that of a group is joined from its rules. Compiling keeps this meaning: the plan
has it (`planAll_meanings`), names may stand for the values (`truth_labels`), the earlier bindings
of the query still give its filter the truth it had (`truth_frame`), and the query joins the filters
one by one as the group would (`truth_foldl_joined`). -/

namespace RuleFilter

/-! ### Interpretations -/

/-- The truth of comparing a field with values, by how the comparison takes them. -/
abbrev Interpretation := String → Comparison → OperandKind → List Value → Truth

/-- The truth of a comparison whose references are read as values. -/
def Interpretation.holds {α : Type} (I : Interpretation) (read : List α → List Value)
    (p : Predicate α) : Truth :=
  I p.field p.comparison p.operand.kind (read p.operand.toList)

/-- The values of names. -/
def Bindings.read (bindings : Bindings) (names : List String) : List Value :=
  names.filterMap fun name => bindings.lookup name

/-- The truth of the filter of a query, its placeholders read through its bindings. -/
def Query.truth (I : Interpretation) (q : Query) : Option Truth :=
  q.filter.map (Filter.truth (I.holds q.bindings.read))

namespace Compiler

variable (compiler : Compiler) (I : Interpretation)

/-- The truth of a leaf; none if it is no rule. -/
def leafMeaning (members : Option Members) : Option Truth :=
  match Rule.ofLeaf compiler.operators members with
  | .error _ => none
  | .ok rule =>
    match rule.coerce compiler.operators compiler.settings with
    | .error _ => none
    | .ok (o, argument) => some (I rule.field o.comparison argument.kind argument.values)

mutual

/-- The truth of a rule tree; none if it holds no rule. -/
def meaning : RuleNode → Option Truth
  | .leaf members => compiler.leafMeaning I members
  | .group condition rules =>
    match compiler.connectiveOf condition with
    | .error _ => none
    | .ok c => c.joinAll? (meanings rules)

/-- The truths of those of several rule trees that hold a rule. -/
def meanings : List RuleNode → List Truth
  | [] => []
  | node :: rest => (meaning node).toList ++ meanings rest

end

/-- The connective and the truth of a payload; none if it holds no rule. A payload is a group: one
that is a bare rule holds none. -/
def rootMeaning (payload : Json) : Option (Connective × Truth) :=
  match RuleNode.ofJson payload with
  | .leaf _ => none
  | .group condition rules =>
    match compiler.connectiveOf condition with
    | .error _ => none
    | .ok c => (c.joinAll? (compiler.meanings I rules)).map fun t => (c, t)

variable {compiler}

/-! ### Plans -/

theorem leafMeaning_of_comparison {members : Option Members} {rule : Rule} {p : Predicate Value}
    (hleaf : Rule.ofLeaf compiler.operators members = .ok rule)
    (hp : compiler.comparison rule = .ok p) :
    compiler.leafMeaning I members = some (I.holds id p) := by
  obtain ⟨o, argument, hc, hfield, hcomparison, hkind, hvalues⟩ := comparison_eq_ok hp
  unfold leafMeaning Interpretation.holds
  rw [hleaf]
  simp only [hc, hfield, hcomparison, hkind, hvalues, id]

mutual

/-- What is left of the plan of a node means what the node means. -/
theorem plan_meaning : ∀ (node : RuleNode) {part : Option Plan},
    (compiler.plan node).result = .ok part →
      (Filter.collapseAll part.toList).map (Filter.truth (I.holds id)) =
        (compiler.meaning I node).toList
  | .leaf members, part, h => by
    rw [meaning]
    rcases plan_leaf_eq_ok h with ⟨reason, hleaf, rfl⟩ | ⟨rule, p, hleaf, hp, rfl⟩
    · unfold leafMeaning
      rw [hleaf]
      rfl
    · rw [leafMeaning_of_comparison I hleaf hp]
      rfl
  | .group condition rules, part, h => by
    obtain ⟨c, parts, hc, hp, rfl⟩ := plan_group_eq_ok h
    have hparts := planAll_meanings rules hp
    have hjoin := Filter.truth_join? (I.holds id) c (Filter.collapseAll parts)
    rw [meaning, hc, Option.toList_some, Filter.collapseAll_group, ← Option.toList_map, hjoin,
      hparts]

theorem planAll_meanings : ∀ (rules : List RuleNode) {parts : List Plan},
    (compiler.planAll rules).result = .ok parts →
      (Filter.collapseAll parts).map (Filter.truth (I.holds id)) = compiler.meanings I rules
  | [], parts, h => by cases h; rfl
  | node :: rest, parts, h => by
    obtain ⟨first, others, hf, ho, rfl⟩ := planAll_cons_eq_ok h
    rw [meanings, Filter.collapseAll_append, List.map_append, plan_meaning node hf,
      planAll_meanings rest ho]

end

/-! ### Names for values -/

theorem read_labels {bindings : Bindings} : ∀ {labels : List Labelled},
    (∀ b ∈ labels, bindings.lookup b.1 = some b.2) →
      bindings.read (labels.map Prod.fst) = labels.map Prod.snd
  | [], _ => rfl
  | b :: rest, h => by
    have hrest := read_labels fun b hb => h b (List.mem_cons_of_mem _ hb)
    unfold Bindings.read at hrest ⊢
    rw [List.map_cons, List.map_cons, List.filterMap_cons, h b List.mem_cons_self, hrest]

theorem truth_labels {bindings : Bindings} {f : Filter Labelled}
    (h : ∀ b ∈ f.references, bindings.lookup b.1 = some b.2) :
    (f.map Prod.fst).truth (I.holds bindings.read) = (f.map Prod.snd).truth (I.holds id) := by
  rw [Filter.truth_map, Filter.truth_map]
  refine Filter.truth_congr fun p hp => ?_
  have hread : bindings.read (p.operand.toList.map Prod.fst) = p.operand.toList.map Prod.snd :=
    read_labels fun b hb => h b (List.mem_flatMap.mpr ⟨p, hp, hb⟩)
  simp only [Interpretation.holds, Predicate.map, Operand.kind_map, Operand.toList_map, hread, id]

variable (compiler)

/-- The bindings of a plan are read as they were made, behind any bindings of other names. -/
theorem lookup_bindingsOf (before : Bindings) (parts : List Plan) {b : Labelled}
    (hb : b ∈ compiler.bindingsOf before.names parts) :
    (before ++ compiler.bindingsOf before.names parts).lookup b.1 = some b.2 := by
  have hfree := compiler.bindingsOf_free before.names parts b.1 (List.mem_map_of_mem hb)
  rw [List.lookup_append, Bindings.lookup_eq_none_iff.mpr hfree, Option.none_or]
  exact Bindings.lookup_of_mem (compiler.nodup_bindingsOf before.names parts) b hb

/-- **The filters of a plan mean what the plan means** once their names are bound. -/
theorem truth_filtersOf (before : Bindings) (parts : List Plan) :
    (compiler.filtersOf before.names parts).map
        (Filter.truth (I.holds (before ++ compiler.bindingsOf before.names parts).read)) =
      (Filter.collapseAll parts).map (Filter.truth (I.holds id)) := by
  rw [← compiler.map_snd_labelled before.names parts, filtersOf, List.map_map, List.map_map]
  refine List.map_congr_left fun f hf => truth_labels I fun b hb => ?_
  exact compiler.lookup_bindingsOf before parts (List.mem_flatMap.mpr ⟨f, hf, hb⟩)

end Compiler

/-! ### Queries -/

namespace Query

variable (I : Interpretation)

/-- Bindings behind those of a query do not change what its filter means. -/
theorem truth_frame {q : Query} (h : q.Bound) (new : Bindings) :
    q.filter.map (Filter.truth (I.holds (q.bindings ++ new).read)) = q.truth I := by
  obtain ⟨filter, bindings⟩ := q
  cases filter with
  | none => rfl
  | some f =>
    refine congrArg some (Filter.truth_congr fun p hp => ?_)
    have hread : (bindings ++ new).read p.operand.toList = bindings.read p.operand.toList := by
      refine List.filterMap_congr fun name hname => ?_
      obtain ⟨value, hvalue⟩ := h name (List.mem_flatMap.mpr ⟨p, hp, hname⟩)
      have hvalue : bindings.lookup name = some value := hvalue
      rw [List.lookup_append, hvalue, Option.some_or]
    unfold Interpretation.holds
    rw [hread]

/-- A filter is joined to what comes before it, if anything does. -/
theorem truth_joined (holds : Predicate String → Truth) (c : Connective)
    (before : Option (Filter String)) (f : Filter String) :
    (joined c before f).map (Filter.truth holds) =
      some (c.after (before.map (Filter.truth holds)) (f.truth holds)) := by
  cases before with
  | none => rfl
  | some before => exact congrArg some (Filter.truth_combine holds before c f)

theorem truth_foldl_joined (holds : Predicate String → Truth) (c : Connective) :
    ∀ (filters : List (Filter String)) (before : Option (Filter String)),
      (filters.foldl (joined c) before).map (Filter.truth holds) =
        (filters.map (Filter.truth holds)).foldl (fun o t => some (c.after o t))
          (before.map (Filter.truth holds))
  | [], _ => rfl
  | f :: rest, before => by
    rw [List.foldl_cons, truth_foldl_joined holds c rest, truth_joined, List.map_cons,
      List.foldl_cons]

end Query

/-! ### Payloads -/

namespace Compiler

variable (compiler : Compiler) (I : Interpretation) (c : Connective) (parts : List Plan)

/-- **A plan delivered to a query is joined to what the query meant.** -/
theorem truth_delivered {q : Query} (hq : q.Bound) :
    (compiler.delivered c parts q).truth I =
      match c.joinAll? ((Filter.collapseAll parts).map (Filter.truth (I.holds id))) with
      | none => q.truth I
      | some t => some (c.after (q.truth I) t) := by
  have hframe := Query.truth_frame I hq (compiler.bindingsOf q.bindings.names parts)
  have hfilters := compiler.truth_filtersOf I q.bindings parts
  have hjoined : (compiler.delivered c parts q).truth I =
      ((Filter.collapseAll parts).map (Filter.truth (I.holds id))).foldl
        (fun o t => some (c.after o t)) (q.truth I) := by
    rw [← hframe, ← hfilters]
    exact Query.truth_foldl_joined _ c _ q.filter
  rw [hjoined]
  exact c.foldl_after _ _

theorem delivered_of_collapseAll_eq_nil (h : Filter.collapseAll parts = []) (q : Query) :
    compiler.delivered c parts q = q := by
  unfold delivered filtersOf bindingsOf labelled
  rw [h]
  simp [Filter.labelAll]

/-- **Compiling keeps the meaning of a payload.** A payload with no rule leaves the query as it is.
Any other gives it a filter that means what the payload means, joined to what the filter of the
query meant before; and again every placeholder has a value. -/
theorem compileJson_truth (compiler : Compiler) (I : Interpretation) (payload : Json)
    (q q' : Query) (hq : q.Bound) (h : (compiler.compileJson payload q).result = .ok q') :
    q'.Bound ∧
      match compiler.rootMeaning I payload with
      | none => q' = q
      | some (c, t) => q'.truth I = some (c.after (q.truth I) t) := by
  unfold compileJson at h
  unfold rootMeaning
  cases hroot : RuleNode.ofJson payload with
  | leaf members =>
    rw [hroot] at h
    cases h
    exact ⟨hq, rfl⟩
  | group condition rules =>
    rw [hroot, compileNode_query] at h
    obtain ⟨c, hc, h⟩ := except_bind_eq_ok.mp h
    obtain ⟨parts, hp, h⟩ := except_bind_eq_ok.mp h
    cases h
    refine ⟨compiler.bound_delivered c parts hq, ?_⟩
    have hmeanings := planAll_meanings I rules hp
    have htruth := compiler.truth_delivered I c parts hq
    rw [hmeanings] at htruth
    simp only [hc]
    cases ht : c.joinAll? (compiler.meanings I rules) with
    | none =>
      rw [Connective.joinAll?_eq_none_iff, ← hmeanings, List.map_eq_nil_iff] at ht
      exact compiler.delivered_of_collapseAll_eq_nil c parts ht q
    | some t =>
      rw [ht] at htruth
      exact htruth

/-- A query on a field `c`, with a name that its owner has bound. -/
def ownedQuery : Query :=
  ⟨some (.leaf ⟨"c", .greater, .single "p1"⟩), [("p1", .int 7)]⟩

/-- A row that fails the first rule of `nestedPayload`, passes the other, and has no `c`. -/
def sampleRow : Interpretation := fun field _ _ values =>
  if field = "a" then .no
  else if field = "b" ∧ values = [.text "x", .text "y"] then .yes
  else .unknown

theorem compileJson_truth_ownedQuery :
    ownedQuery.Bound ∧
      (standardCompiler.compileJson nestedPayload ownedQuery).result =
        .ok (Sink.receiveAll ownedQuery nestedCalls) ∧
      (Sink.receiveAll ownedQuery nestedCalls).Bound ∧
      (Sink.receiveAll ownedQuery nestedCalls).truth sampleRow =
        some (Connective.or.join .unknown .yes) := by
  have hbound : ownedQuery.Bound := by
    rw [Query.bound_iff]
    decide
  obtain ⟨hbound', htruth⟩ := compileJson_truth standardCompiler sampleRow nestedPayload
    ownedQuery (Sink.receiveAll ownedQuery nestedCalls) hbound rfl
  exact ⟨hbound, rfl, hbound', htruth⟩

end Compiler

end RuleFilter
