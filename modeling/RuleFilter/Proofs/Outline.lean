import RuleFilter.Proofs.Rendering

/-! # Outlines

The outline of a filter is the filter without its values. The plan of a rule tree has an outline
that is settled by the connectives of the groups and by the field, the operator and the number of
values of every rule (`plan_outline`); the names drawn for values hang on their number alone
(`names_label_congr`). So what is written for a payload is the same for every other payload of the
same outline, whatever its values are (`delivered_outline`). -/

namespace RuleFilter

/-! ### Comparisons without values -/

/-- The right-hand side of an operator, with places for a number of values. -/
def Operator.places (o : Operator) (count : Nat) : Operand Unit :=
  match o.arity with
  | .none => if o.comparison.isNullCheck then .none else .blank
  | .one => .single ()
  | .several => .list (List.replicate count ())
  | .two => .range () ()

/-- An operator and the number of values settle the form of a right-hand side. -/
theorem Operator.operand?_outline {o : Operator} {argument : Argument} {operand : Operand Value}
    (h : o.operand? argument = some operand) :
    operand.map (fun _ => ()) = o.places operand.toList.length := by
  unfold operand? at h
  unfold places
  split at h
  case h_1 harity =>
    obtain rfl := Option.some.inj h
    rw [harity]
    cases o.comparison.isNullCheck <;> rfl
  case h_2 value harity =>
    obtain rfl := Option.some.inj h
    rw [harity]
    rfl
  case h_3 low high harity =>
    obtain rfl := Option.some.inj h
    rw [harity]
    rfl
  case h_4 value rest harity =>
    obtain rfl := Option.some.inj h
    rw [harity]
    exact congrArg Operand.list (List.map_const' ..)
  case h_5 => cases h

/-! ### Names -/

/-- The filter with nothing on the right of its comparisons but the places of values. -/
def Filter.outline {α : Type} : Filter α → Filter Unit :=
  Filter.map fun _ => ()

/-- **Names hang on the number of values alone.** -/
theorem NameSupply.names_label_congr (taken : List String) (xs : List Value) :
    ∀ (ys : List Value) (supply : NameSupply), xs.length = ys.length →
      (supply.label taken xs).1.map Prod.fst = (supply.label taken ys).1.map Prod.fst := by
  induction xs with
  | nil =>
    intro ys supply h
    rw [List.eq_nil_of_length_eq_zero h.symm]
  | cons x xs ih =>
    intro ys supply h
    obtain ⟨y, ys, rfl⟩ := List.exists_cons_of_length_eq_add_one h.symm
    rw [List.length_cons, List.length_cons] at h
    rw [label_cons, label_cons, List.map_cons, List.map_cons, ih ys _ (by omega)]

theorem Filter.length_references_outline {α : Type} (f : Filter α) :
    f.outline.references.length = f.references.length := by
  unfold outline
  rw [references_map, List.length_map]

namespace Compiler

variable {compiler : Compiler}

/-- Plans of one outline are written with the same names. -/
theorem names_congr {parts parts' : List Plan} (taken : List String)
    (h : parts.map Filter.outline = parts'.map Filter.outline) :
    (compiler.bindingsOf taken parts).names = (compiler.bindingsOf taken parts').names := by
  have hcount : (parts.flatMap Filter.references).length =
      (parts'.flatMap Filter.references).length := by
    have hlengths (ps : List Plan) : (ps.flatMap Filter.references).length =
        ((ps.map Filter.outline).flatMap Filter.references).length := by
      rw [List.flatMap_map, List.length_flatMap, List.length_flatMap]
      simp only [Filter.length_references_outline]
    rw [hlengths, hlengths, h]
  unfold Bindings.names
  rw [bindingsOf_eq, bindingsOf_eq]
  exact NameSupply.names_label_congr taken _ _ _ hcount

theorem outline_filtersOf (taken : List String) (parts : List Plan) :
    (compiler.filtersOf taken parts).map Filter.outline =
      Filter.collapseAll (parts.map Filter.outline) := by
  have hvalues := compiler.map_snd_labelled taken parts
  unfold filtersOf Filter.outline
  rw [Filter.collapseAll_map, ← hvalues, List.map_map, List.map_map]
  refine List.map_congr_left fun f _ => ?_
  rw [Function.comp_apply, Function.comp_apply, Filter.map_map, Filter.map_map]
  rfl

/-- **Plans of one outline are written alike.** -/
theorem filtersOf_congr {parts parts' : List Plan} (taken : List String)
    (h : parts.map Filter.outline = parts'.map Filter.outline) :
    compiler.filtersOf taken parts = compiler.filtersOf taken parts' := by
  refine Filter.eq_of_map_map_eq (fun _ => ()) _ _ ?_ ?_
  · have hshape : (compiler.filtersOf taken parts).map Filter.outline =
        Filter.collapseAll (parts.map Filter.outline) := outline_filtersOf taken parts
    rw [h, ← outline_filtersOf] at hshape
    exact hshape
  · rw [← names_bindingsOf, ← names_bindingsOf, names_congr taken h]

/-! ### Rule trees of one outline -/

variable (compiler)

/-- Both leaves are skipped, or both are rules that compare the same field by the same operator with
as many values. -/
inductive AlikeLeaves : Option Members → Option Members → Prop where
  | skipped {members members' : Option Members} {reason reason' : RuleSkip}
      (left : Rule.ofLeaf compiler.operators members = .error reason)
      (right : Rule.ofLeaf compiler.operators members' = .error reason') :
      AlikeLeaves members members'
  | rules {members members' : Option Members} {rule rule' : Rule}
      (left : Rule.ofLeaf compiler.operators members = .ok rule)
      (right : Rule.ofLeaf compiler.operators members' = .ok rule')
      (field : rule.field = rule'.field)
      (operator : rule.operator = rule'.operator)
      (count : (compiler.valuesOf rule).length = (compiler.valuesOf rule').length) :
      AlikeLeaves members members'

mutual

/-- The nodes have the same groups under the same connectives, and their leaves are alike. -/
def Alike : RuleNode → RuleNode → Prop
  | .leaf members, .leaf members' => compiler.AlikeLeaves members members'
  | .group condition rules, .group condition' rules' =>
    (compiler.connectiveOf condition).toOption = (compiler.connectiveOf condition').toOption ∧
      AlikeAll rules rules'
  | .leaf _, .group _ _ => False
  | .group _ _, .leaf _ => False

/-- The nodes are alike, one by one. -/
def AlikeAll : List RuleNode → List RuleNode → Prop
  | [], [] => True
  | node :: rest, node' :: rest' => Alike node node' ∧ AlikeAll rest rest'
  | [], _ :: _ => False
  | _ :: _, [] => False

end

/-- The payloads have rule trees that are alike, or no rules at all. -/
def AlikePayloads (payload payload' : Json) : Prop :=
  match RuleNode.ofJson payload, RuleNode.ofJson payload' with
  | .leaf _, .leaf _ => True
  | root, root' => compiler.Alike root root'

variable {compiler}

/-! ### Plans of one outline -/

theorem comparison_outline {rule rule' : Rule} {p p' : Predicate Value}
    (h : compiler.comparison rule = .ok p) (h' : compiler.comparison rule' = .ok p')
    (hfield : rule.field = rule'.field) (hoperator : rule.operator = rule'.operator)
    (hcount : (compiler.valuesOf rule).length = (compiler.valuesOf rule').length) :
    p.map (fun _ => ()) = p'.map fun _ => () := by
  obtain ⟨o, argument, hc, hf, ho, hoperand⟩ := comparison_operand h
  obtain ⟨o', argument', hc', hf', ho', hoperand'⟩ := comparison_operand h'
  obtain rfl : o = o' := by
    have hfind := (coerce_eq_ok hc).1
    rw [hoperator, (coerce_eq_ok hc').1] at hfind
    exact (Option.some.inj hfind).symm
  rw [← toList_of_comparison h, ← toList_of_comparison h'] at hcount
  unfold Predicate.map
  rw [Operator.operand?_outline hoperand, Operator.operand?_outline hoperand', hcount, hf, hf',
    hfield, ho, ho']

theorem plan_leaf_outline {members members' : Option Members} {part part' : Option Plan}
    (halike : compiler.AlikeLeaves members members')
    (h : (compiler.plan (.leaf members)).result = .ok part)
    (h' : (compiler.plan (.leaf members')).result = .ok part') :
    part.map Filter.outline = part'.map Filter.outline := by
  cases halike with
  | skipped left right =>
    rcases plan_leaf_eq_ok h with ⟨_, -, rfl⟩ | ⟨rule, _, hleaf, -, -⟩
    · rcases plan_leaf_eq_ok h' with ⟨_, -, rfl⟩ | ⟨rule', _, hleaf', -, -⟩
      · rfl
      · rw [right] at hleaf'
        cases hleaf'
    · rw [left] at hleaf
      cases hleaf
  | rules left right hfield hoperator hcount =>
    rcases plan_leaf_eq_ok h with ⟨_, hleaf, -⟩ | ⟨rule, p, hleaf, hp, rfl⟩
    · rw [left] at hleaf
      cases hleaf
    rcases plan_leaf_eq_ok h' with ⟨_, hleaf', -⟩ | ⟨rule', p', hleaf', hp', rfl⟩
    · rw [right] at hleaf'
      cases hleaf'
    rw [left] at hleaf
    rw [right] at hleaf'
    cases hleaf
    cases hleaf'
    have hoperands := comparison_outline hp hp' hfield hoperator hcount
    exact congrArg (fun p => some (Filter.leaf p)) hoperands

mutual

/-- **Alike nodes have plans of one outline.** -/
theorem plan_outline : ∀ {node node' : RuleNode} {part part' : Option Plan},
    compiler.Alike node node' → (compiler.plan node).result = .ok part →
      (compiler.plan node').result = .ok part' →
        part.map Filter.outline = part'.map Filter.outline
  | .leaf members, .leaf members', _, _, halike, h, h' => by
    rw [Alike] at halike
    exact plan_leaf_outline halike h h'
  | .group condition rules, .group condition' rules', _, _, halike, h, h' => by
    obtain ⟨c, parts, hc, hp, rfl⟩ := plan_group_eq_ok h
    obtain ⟨c', parts', hc', hp', rfl⟩ := plan_group_eq_ok h'
    rw [Alike, hc, hc'] at halike
    obtain ⟨hconnective, hrules⟩ := halike
    have hparts := planAll_outline hrules hp hp'
    cases hconnective
    unfold Filter.outline at hparts ⊢
    rw [Option.map_some, Option.map_some, Filter.map_group, Filter.map_group, hparts]
  | .leaf _, .group _ _, _, _, halike, _, _ => by
    rw [Alike] at halike
    exact halike.elim
  | .group _ _, .leaf _, _, _, halike, _, _ => by
    rw [Alike] at halike
    exact halike.elim

theorem planAll_outline : ∀ {rules rules' : List RuleNode} {parts parts' : List Plan},
    compiler.AlikeAll rules rules' → (compiler.planAll rules).result = .ok parts →
      (compiler.planAll rules').result = .ok parts' →
        parts.map Filter.outline = parts'.map Filter.outline
  | [], [], _, _, _, h, h' => by
    cases h
    cases h'
    rfl
  | node :: rest, node' :: rest', _, _, halike, h, h' => by
    obtain ⟨first, others, hf, ho, rfl⟩ := planAll_cons_eq_ok h
    obtain ⟨first', others', hf', ho', rfl⟩ := planAll_cons_eq_ok h'
    rw [AlikeAll] at halike
    have hfirst := plan_outline halike.1 hf hf'
    have hothers := planAll_outline halike.2 ho ho'
    rw [List.map_append, List.map_append, ← Option.toList_map, ← Option.toList_map, hfirst,
      hothers]
  | [], _ :: _, _, _, halike, _, _ => by
    rw [AlikeAll] at halike
    exact halike.elim
  | _ :: _, [], _, _, halike, _, _ => by
    rw [AlikeAll] at halike
    exact halike.elim

end

/-! ### Queries of one outline -/

/-- **Plans of one outline give a query the same filter and the same names.** -/
theorem delivered_outline (compiler : Compiler) (c : Connective) {parts parts' : List Plan}
    (q : Query) (h : parts.map Filter.outline = parts'.map Filter.outline) :
    (compiler.delivered c parts q).filter = (compiler.delivered c parts' q).filter ∧
      (compiler.delivered c parts q).bindings.names =
        (compiler.delivered c parts' q).bindings.names := by
  unfold delivered
  rw [filtersOf_congr _ h]
  refine ⟨rfl, ?_⟩
  rw [Bindings.names_append, Bindings.names_append, names_congr _ h]

theorem compileJson_outline {compiler : Compiler} {payload payload' : Json} {q q₁ q₂ : Query}
    (halike : compiler.AlikePayloads payload payload')
    (h₁ : (compiler.compileJson payload q).result = .ok q₁)
    (h₂ : (compiler.compileJson payload' q).result = .ok q₂) :
    q₁.filter = q₂.filter ∧ q₁.bindings.names = q₂.bindings.names := by
  unfold compileJson at h₁ h₂
  unfold AlikePayloads at halike
  cases hroot : RuleNode.ofJson payload with
  | leaf members =>
    cases hroot' : RuleNode.ofJson payload' with
    | leaf members' =>
      rw [hroot] at h₁
      rw [hroot'] at h₂
      cases h₁
      cases h₂
      exact ⟨rfl, rfl⟩
    | group condition' rules' =>
      simp only [hroot, hroot', Alike] at halike
  | group condition rules =>
    cases hroot' : RuleNode.ofJson payload' with
    | leaf members' => simp only [hroot, hroot', Alike] at halike
    | group condition' rules' =>
      simp only [hroot, hroot', Alike] at halike
      obtain ⟨hconnective, hrules⟩ := halike
      rw [hroot, compileNode_query] at h₁
      rw [hroot', compileNode_query] at h₂
      obtain ⟨c, hc, h₁⟩ := except_bind_eq_ok.mp h₁
      obtain ⟨parts, hp, h₁⟩ := except_bind_eq_ok.mp h₁
      obtain ⟨c', hc', h₂⟩ := except_bind_eq_ok.mp h₂
      obtain ⟨parts', hp', h₂⟩ := except_bind_eq_ok.mp h₂
      rw [hc, hc'] at hconnective
      cases hconnective
      cases h₁
      cases h₂
      exact compiler.delivered_outline c q (planAll_outline hrules hp hp')

/-- **Values influence nothing but the bound values.** Two payloads that differ in the values of
their rules, as long as every rule has as many, and in whatever else does not show in their outline,
give a query the same filter, the same text with named placeholders, the same names in the same
order and the same prepared statement. -/
theorem compileJson_valueBlind (compiler : Compiler) (payload payload' : Json) (q q₁ q₂ : Query)
    (halike : compiler.AlikePayloads payload payload')
    (h₁ : (compiler.compileJson payload q).result = .ok q₁)
    (h₂ : (compiler.compileJson payload' q).result = .ok q₂) :
    q₁.filter = q₂.filter ∧ q₁.text = q₂.text ∧ q₁.placeholders = q₂.placeholders ∧
      q₁.bindings.names = q₂.bindings.names ∧
      ∀ d : Dialect, (q₁.render d).map Prod.fst = (q₂.render d).map Prod.fst := by
  obtain ⟨hfilter, hnames⟩ := compileJson_outline halike h₁ h₂
  refine ⟨hfilter, ?_, ?_, hnames, Query.render_congr hfilter hnames⟩
  · unfold Query.text
    rw [hfilter]
  · unfold Query.placeholders
    rw [hfilter]

/-- A payload of the outline of `nestedPayload` whose values read like SQL. -/
def hostilePayload : Json :=
  .obj [("condition", .str " OR "), ("valid", .bool true), ("rules", .arr
    [textRule "a" "equal" (.str "1' OR ''='"),
      .obj [("rules", .arr [textRule "c); --" "no_such_operator" (.str ":p0")])],
      .obj [("rules", .arr [textRule "b" "in" (.arr [.str ":p0)", .null])])]])]

/-- A query without a filter and with a name that its owner has bound. -/
def reservedQuery : Query :=
  ⟨none, [("p1", .int 7)]⟩

theorem compileJson_valueBlind_hostilePayload :
    standardCompiler.AlikePayloads nestedPayload hostilePayload ∧ ∃ q₁ q₂,
      (standardCompiler.compileJson nestedPayload reservedQuery).result = .ok q₁ ∧
      (standardCompiler.compileJson hostilePayload reservedQuery).result = .ok q₂ ∧
      q₁.bindings ≠ q₂.bindings ∧
      q₁.filter = q₂.filter ∧ q₁.text = q₂.text ∧ q₁.placeholders = q₂.placeholders ∧
      q₁.bindings.names = q₂.bindings.names ∧
      ∀ d : Dialect, (q₁.render d).map Prod.fst = (q₂.render d).map Prod.fst := by
  have halike : standardCompiler.AlikePayloads nestedPayload hostilePayload := by
    refine And.intro rfl ⟨.rules rfl rfl rfl rfl rfl, ?_, ?_, trivial⟩
    · exact And.intro rfl ⟨.skipped rfl rfl, trivial⟩
    · exact And.intro rfl ⟨.rules rfl rfl rfl rfl rfl, trivial⟩
  refine ⟨halike, _, _, rfl, rfl, by decide, ?_⟩
  exact compileJson_valueBlind standardCompiler nestedPayload hostilePayload reservedQuery _ _
    halike rfl rfl

end Compiler

end RuleFilter
