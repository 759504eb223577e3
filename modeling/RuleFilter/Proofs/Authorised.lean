import RuleFilter.Proofs.Clause.Spelling
import RuleFilter.Proofs.Faults
import RuleFilter.Proofs.Idle

/-! # Authorised filters

A filter that is handed to a sink is folded: each of its groups has two parts at least, because
groups are joined from the inside out (`folded_collapse`). Its comparisons are those of valid rules
(`exists_comparison`), so each has a field that passed the check of fields, and a right-hand side
that suits its operator if the operators of the table do not contradict themselves
(`Operator.isSound`, which holds of the standard ones). A query only ever combines what it is
handed, so its filter is no worse after a session of compilations (`folded_run`). -/

namespace RuleFilter

/-! ### Folded filters -/

theorem Operand.suits_map {α β : Type} (g : α → β) (c : Comparison) : ∀ o : Operand α,
    (o.map g).suits c = o.suits c
  | .none | .blank | .single _ | .range _ _ => rfl
  | .list as => by cases as <;> rfl

namespace Filter

variable {α β : Type}

/-- Every group has two parts at least. -/
inductive Folded : Filter α → Prop where
  | leaf (p : Predicate α) : Folded (.leaf p)
  | group {c : Connective} {parts : List (Filter α)} (two : 2 ≤ parts.length)
      (inside : ∀ part ∈ parts, Folded part) : Folded (.group c parts)

theorem folded_group_iff {c : Connective} {parts : List (Filter α)} :
    (group c parts).Folded ↔ 2 ≤ parts.length ∧ ∀ part ∈ parts, part.Folded := by
  constructor
  · intro h
    cases h with
    | group two inside => exact ⟨two, inside⟩
  · rintro ⟨two, inside⟩
    exact .group two inside

theorem folded_map_iff (g : α → β) (f : Filter α) : (f.map g).Folded ↔ f.Folded := by
  induction f with
  | leaf p => exact iff_of_true (.leaf _) (.leaf p)
  | group c parts ih =>
    rw [map_group, folded_group_iff, folded_group_iff, List.length_map, List.forall_mem_map]
    exact and_congr_right fun _ => forall₂_congr ih

theorem folded_of_join? {c : Connective} {fs : List (Filter α)} (h : ∀ f ∈ fs, f.Folded) :
    ∀ f ∈ join? c fs, f.Folded := by
  intro f hf
  match fs, hf with
  | [_], hf =>
    cases hf
    exact h f List.mem_cons_self
  | a :: b :: rest, hf =>
    cases hf
    exact .group (by simp) h

/-- **Joining from the inside out folds a filter.** -/
theorem folded_collapse (f : Filter α) : ∀ g ∈ f.collapse, g.Folded := by
  induction f with
  | leaf p =>
    intro g hg
    cases hg
    exact .leaf p
  | group c parts ih =>
    rw [collapse_group, collapseAll_eq]
    refine folded_of_join? fun g hg => ?_
    obtain ⟨part, hpart, hg⟩ := List.mem_flatMap.mp hg
    exact ih part hpart g (Option.mem_toList.mp hg)

theorem folded_collapseAll {fs : List (Filter α)} : ∀ g ∈ collapseAll fs, g.Folded := by
  intro g hg
  rw [collapseAll_eq] at hg
  obtain ⟨f, -, hg⟩ := List.mem_flatMap.mp hg
  exact folded_collapse f g (Option.mem_toList.mp hg)

/-- **Combining keeps filters folded**, whether it extends a group or wraps it. -/
theorem folded_combine {f other : Filter α} (hf : f.Folded) (c : Connective)
    (hother : other.Folded) : (f.combine c other).Folded := by
  have hpair : (group c [f, other]).Folded := by
    refine .group le_rfl (List.forall_mem_cons.mpr ⟨hf, ?_⟩)
    exact List.forall_mem_singleton.mpr hother
  cases f with
  | leaf p => exact hpair
  | group inner parts =>
    obtain ⟨htwo, hinside⟩ := folded_group_iff.mp hf
    simp only [combine]
    split_ifs with h
    · have hlength : 2 ≤ (parts ++ [other]).length := by
        rw [List.length_append]
        omega
      refine .group hlength (List.forall_mem_append.mpr ⟨hinside, ?_⟩)
      exact List.forall_mem_singleton.mpr hother
    · exact hpair

end Filter

/-! ### Operators -/

/-- An operator does not contradict itself: it takes a value unless it checks for null, and if it
takes none and checks for no null, it is an equality or its opposite. -/
def Operator.isSound (o : Operator) : Bool :=
  if o.usesValue then !o.comparison.isNullCheck
  else o.comparison.isNullCheck || o.comparison = .equal || o.comparison = .notEqual

/-- **A sound operator gets the right-hand side that suits it.** -/
theorem Operator.suits_of_operand? {o : Operator} (hsound : o.isSound) {argument : Argument}
    {operand : Operand Value} (h : o.operand? argument = some operand) :
    operand.suits o.comparison := by
  unfold isSound at hsound
  cases huse : o.usesValue with
  | false =>
    rw [operand?_of_not_usesValue huse] at h
    rw [huse] at hsound
    cases h
    cases hnull : o.comparison.isNullCheck with
    | true => exact hnull
    | false => simpa [hnull, Operand.suits] using hsound
  | true =>
    have hnull : o.comparison.isNullCheck = false := by simpa [huse] using hsound
    have harity := arity_of_usesValue huse
    unfold operand? at h
    split at h
    · rename_i hnone
      rw [hnone] at harity
      split_ifs at harity
    · rename_i hone
      rw [hone] at harity
      cases h
      split_ifs at harity with hrange hseveral
      simp [Operand.suits, hnull, hseveral]
    · rename_i htwo
      rw [htwo] at harity
      cases h
      split_ifs at harity with hrange hseveral
      exact hrange
    · rename_i hmore
      rw [hmore] at harity
      cases h
      split_ifs at harity with hrange hseveral
      simp [Operand.suits, hrange, hseveral]
    · cases h

/-- No standard operator contradicts itself. -/
theorem OperatorTable.isSound_standard : ∀ o ∈ OperatorTable.standard.operators, o.isSound := by
  decide

/-! ### What a compilation hands over -/

namespace Compiler

variable {compiler : Compiler}

theorem allows_of_comparison {rule : Rule} {p : Predicate Value}
    (h : compiler.comparison rule = .ok p) : compiler.Allows p.field := by
  obtain ⟨-, -, -, hfield, -, -⟩ := comparison_operand h
  unfold comparison at h
  obtain ⟨_, hcheck, -⟩ := except_bind_eq_ok.mp h
  rw [hfield]
  exact (errorOf_checkField_eq_none_iff _).mp (errorOf_eq_none_iff.mpr ⟨_, hcheck⟩)

theorem suits_of_comparison (hsound : ∀ o ∈ compiler.operators.operators, o.isSound)
    {rule : Rule} {p : Predicate Value} (h : compiler.comparison rule = .ok p) :
    p.operand.suits p.comparison := by
  obtain ⟨o, argument, hc, -, hcomparison, hoperand⟩ := comparison_operand h
  have hmem : o ∈ compiler.operators.operators := List.mem_of_find?_eq_some (coerce_eq_ok hc).1
  rw [hcomparison]
  exact Operator.suits_of_operand? (hsound o hmem) hoperand

/-- Every comparison of a plan is one that a rule asks for. -/
theorem exists_rule_of_mem {rules : List RuleNode} {parts : List Plan}
    (h : (compiler.planAll rules).result = .ok parts) :
    ∀ p ∈ parts.flatMap Filter.predicates, ∃ rule, compiler.comparison rule = .ok p := by
  have hrules : List.Forall₂ (fun p rule => compiler.comparison rule = .ok p)
      (parts.flatMap Filter.predicates) (RuleNode.validRulesOfAll compiler.operators rules) :=
    (planAll_rules rules h).flip
  exact ((List.forall₂_and_left _ _).mp (hrules.imp fun p rule hp => ⟨⟨rule, hp⟩, hp⟩)).1

/-- **Every comparison that is written is one that a rule asks for**, with names for its values. -/
theorem exists_comparison {rules : List RuleNode} {parts : List Plan} (taken : List String)
    (h : (compiler.planAll rules).result = .ok parts) {f : Filter Labelled}
    (hf : f ∈ compiler.labelled taken parts) {p : Predicate Labelled} (hp : p ∈ f.predicates) :
    ∃ rule, compiler.comparison rule = .ok (p.map Prod.snd) := by
  refine exists_rule_of_mem h _ ?_
  rw [← Filter.predicates_collapseAll, ← compiler.map_snd_labelled taken parts, List.flatMap_map]
  refine List.mem_flatMap.mpr ⟨f, hf, ?_⟩
  rw [Filter.predicates_map]
  exact List.mem_map_of_mem hp

variable (compiler)

/-- What a comparison has to be to stand in SQL text: its field may stand there and, with the
standard operators, its right-hand side suits it. -/
structure Permits (p : Predicate String) : Prop where
  field : compiler.Allows p.field
  operand : compiler.operators = .standard → p.operand.suits p.comparison

/-- A filter may stand in SQL text if it is folded and its comparisons may. -/
structure Authorises (f : Filter String) : Prop where
  folded : f.Folded
  comparisons : ∀ p ∈ f.predicates, compiler.Permits p

variable {compiler}

theorem authorises_filtersOf {rules : List RuleNode} {parts : List Plan} (taken : List String)
    (h : (compiler.planAll rules).result = .ok parts) :
    ∀ f ∈ compiler.filtersOf taken parts, compiler.Authorises f := by
  intro f hf
  obtain ⟨g, hg, rfl⟩ := List.mem_map.mp hf
  have hcollapsed : g.map Prod.snd ∈ Filter.collapseAll parts := by
    rw [← compiler.map_snd_labelled taken parts]
    exact List.mem_map_of_mem hg
  have hcomparison : ∀ p ∈ (g.map Prod.fst).predicates, ∃ (q : Predicate Labelled) (rule : Rule),
      p = q.map Prod.fst ∧ compiler.comparison rule = .ok (q.map Prod.snd) := by
    intro p hp
    rw [Filter.predicates_map] at hp
    obtain ⟨q, hq, rfl⟩ := List.mem_map.mp hp
    obtain ⟨rule, hrule⟩ := exists_comparison taken h hg hq
    exact ⟨q, rule, rfl, hrule⟩
  have hfolded := Filter.folded_collapseAll _ hcollapsed
  rw [Filter.folded_map_iff] at hfolded
  refine ⟨(Filter.folded_map_iff _ _).mpr hfolded, fun p hp => ?_⟩
  obtain ⟨q, rule, rfl, hrule⟩ := hcomparison p hp
  refine ⟨allows_of_comparison hrule, fun hstandard => ?_⟩
  have hsound : ∀ o ∈ compiler.operators.operators, o.isSound := by
    rw [hstandard]
    exact OperatorTable.isSound_standard
  have hsuits : (q.operand.map Prod.snd).suits q.comparison := suits_of_comparison hsound hrule
  rw [Operand.suits_map] at hsuits
  show (q.operand.map Prod.fst).suits q.comparison
  rwa [Operand.suits_map]

/-- **Every filter that is handed over is authorised.** -/
theorem authorises_of_calls {taken : List String} {node : RuleNode} {called : List Call}
    (h : compiler.calls taken node = .ok called) {c : Connective} {f : Filter String}
    (hf : Call.add c f ∈ called) : compiler.Authorises f := by
  cases node with
  | leaf members =>
    cases h
    cases hf
  | group condition rules =>
    obtain ⟨c', parts, -, hp, rfl⟩ := compiler.calls_group_eq_ok h
    rcases List.mem_append.mp hf with hf | hf
    · obtain ⟨g, hg, heq⟩ := List.mem_map.mp hf
      cases heq
      exact authorises_filtersOf taken hp f hg
    · obtain ⟨b, -, heq⟩ := List.mem_map.mp hf
      cases heq

end Compiler

/-! ### Queries after sessions -/

/-- What holds of the filter of a query and of all filters that it is handed holds in the end, if it
is kept by combining. -/
theorem Query.filter_receiveAll {P : Filter String → Prop}
    (hcombine : ∀ f c other, P f → P other → P (f.combine c other)) :
    ∀ (calls : List Call) (q : Query), (∀ f ∈ q.filter, P f) →
      (∀ c f, Call.add c f ∈ calls → P f) → ∀ f ∈ (Sink.receiveAll q calls).filter, P f
  | [], _, hq, _ => hq
  | call :: rest, q, hq, hcalls => by
    have hcall : ∀ f ∈ (Sink.receive q call).filter, P f := by
      cases call with
      | bind name value => exact hq
      | add c other =>
        have hother := hcalls c other List.mem_cons_self
        intro f hf
        cases hf
        cases hfilter : q.filter with
        | none => exact hother
        | some before => exact hcombine before c other (hq before hfilter) hother
    exact filter_receiveAll hcombine rest _ hcall fun c f hf =>
      hcalls c f (List.mem_cons_of_mem _ hf)

namespace Step

theorem filter_run {P : Filter String → Prop}
    (hcombine : ∀ f c other, P f → P other → P (f.combine c other)) :
    ∀ (steps : List Step) (q : Query), (∀ f ∈ q.filter, P f) →
      (∀ step ∈ steps, ∀ taken c f, Call.add c f ∈ step.calls taken → P f) →
        ∀ f ∈ (run q steps).filter, P f
  | [], _, hq, _ => hq
  | step :: rest, q, hq, hsteps => by
    have hstep : ∀ f ∈ (step.apply q).filter, P f := by
      rw [apply_eq]
      exact Query.filter_receiveAll hcombine _ q hq (hsteps step List.mem_cons_self _)
    exact filter_run hcombine rest _ hstep fun s hs => hsteps s (List.mem_cons_of_mem _ hs)

/-- What a step compiles with, if it compiles at all. -/
def compiler? : Step → Option Compiler
  | .compile compiler _ | .compileJson compiler _ => some compiler
  | .add _ _ | .bind _ _ => none

/-- What the steps of a session compile with. -/
def compilers (steps : List Step) : List Compiler :=
  steps.filterMap compiler?

theorem authorises_of_callsOfJson {taken : List String} {compiler : Compiler} {payload : Json}
    {c : Connective} {f : Filter String}
    (h : Call.add c f ∈ callsOfJson taken compiler payload) : compiler.Authorises f := by
  unfold callsOfJson at h
  cases hcalls : compiler.calls taken (.ofJson payload) with
  | error e =>
    rw [hcalls] at h
    cases h
  | ok called =>
    rw [hcalls] at h
    exact Compiler.authorises_of_calls hcalls h

/-- A compilation hands over filters that are authorised by what it compiles with. -/
theorem exists_compiler {step : Step} (hstep : step.isCompilation = true) {taken : List String}
    {c : Connective} {f : Filter String} (h : Call.add c f ∈ step.calls taken) :
    ∃ compiler, step.compiler? = some compiler ∧ compiler.Authorises f := by
  cases step with
  | compile compiler payload =>
    simp only [calls] at h
    split at h
    · cases h
    · exact ⟨compiler, rfl, authorises_of_callsOfJson h⟩
  | compileJson compiler payload => exact ⟨compiler, rfl, authorises_of_callsOfJson h⟩
  | add c' g => cases hstep
  | bind name value => cases hstep

/-- **After compilations alone the filter of a query is folded**, and each of its comparisons is
permitted by what it was compiled with. -/
theorem folded_run {steps : List Step} (hsteps : ∀ step ∈ steps, step.isCompilation = true) :
    ∀ f ∈ (run Query.empty steps).filter, f.Folded ∧
      ∀ p ∈ f.predicates, ∃ compiler ∈ compilers steps, compiler.Permits p := by
  -- the invariant speaks of all compilers of the session at once, so combining cannot lose one
  refine filter_run ?_ steps Query.empty (fun f hf => by cases hf) ?_
  · rintro f c other ⟨hf, hleaves⟩ ⟨hother, hleaves'⟩
    refine ⟨Filter.folded_combine hf c hother, ?_⟩
    rw [Filter.predicates_combine]
    exact List.forall_mem_append.mpr ⟨hleaves, hleaves'⟩
  · intro step hstep taken c f hf
    obtain ⟨compiler, hcompiler, hauthorises⟩ := exists_compiler (hsteps step hstep) hf
    have hmem : compiler ∈ compilers steps := List.mem_filterMap.mpr ⟨step, hstep, hcompiler⟩
    exact ⟨hauthorises.folded, fun p hp => ⟨compiler, hmem, hauthorises.comparisons p hp⟩⟩

end Step

/-- **Everything that is handed to a sink is authorised.** A compilation that succeeds adds only
folded filters whose comparisons have fields that may stand in SQL text and, with the standard
operators, right-hand sides that suit them. The filter of a query is folded after any session of
compilations, and each of its comparisons is permitted by one of them. -/
theorem Compiler.compileJson_authorised {σ : Type} [Sink σ] (compiler : Compiler) (payload : Json)
    (sink : σ) :
    (∀ sink', (compiler.compileJson payload sink).result = .ok sink' →
      ∃ called, sink' = Sink.receiveAll sink called ∧ compiler.Makes payload sink called ∧
        ∀ c f, Call.add c f ∈ called → compiler.Authorises f) ∧
    ∀ steps : List Step, (∀ step ∈ steps, step.isCompilation = true) →
      ∀ f, (Step.run Query.empty steps).filter = some f →
        f.Folded ∧ ∀ p ∈ f.predicates, ∃ compiler' ∈ Step.compilers steps, compiler'.Permits p := by
  constructor
  · intro sink' h
    unfold compileJson at h
    rw [compileNode_result] at h
    obtain ⟨called, hcalled, rfl⟩ := except_map_eq_ok.mp h
    exact ⟨called, rfl, makes_iff.mpr hcalled, fun c f hf => authorises_of_calls hcalled hf⟩
  · intro steps hsteps f hf
    exact Step.folded_run hsteps f hf

/-- The standard operators, where two fields are listed of which one is no path. -/
def listedCompiler : Compiler :=
  ⟨.standard, { placeholderStem := "v" }, some (.ofList ["a", "b c"])⟩

/-- A session in which the second payload is refused. -/
def mixedSession : List Step :=
  [.compileJson standardCompiler nestedPayload, .compileJson listedCompiler nestedPayload,
    .compileJson listedCompiler (.obj [("rules", .arr [textRule "b c" "is_empty" .null])])]

/-- What `mixedSession` makes of a new query. -/
def mixedFilter : Filter String :=
  .group .and
    [.group .or [.leaf ⟨"a", .equal, .single "p0"⟩, .leaf ⟨"b", .isIn, .list ["p1", "p2"]⟩],
      .leaf ⟨"b c", .equal, .blank⟩]

theorem Compiler.compileJson_authorised_mixedSession :
    (standardCompiler.compileJson nestedPayload (Recorder.withTaken ["p1"])).result =
        .ok ⟨["p1"], nestedCalls⟩ ∧
      (∃ called, Recorder.mk ["p1"] nestedCalls =
          Sink.receiveAll (Recorder.withTaken ["p1"]) called ∧
        standardCompiler.Makes nestedPayload (Recorder.withTaken ["p1"]) called ∧
        ∀ c f, Call.add c f ∈ called → standardCompiler.Authorises f) ∧
      (∀ step ∈ mixedSession, step.isCompilation = true) ∧
      (Step.run Query.empty mixedSession).filter = some mixedFilter ∧
      mixedFilter.Folded ∧ ∀ p ∈ mixedFilter.predicates,
        ∃ compiler' ∈ Step.compilers mixedSession, compiler'.Permits p := by
  obtain ⟨hcalls, hsession⟩ :=
    Compiler.compileJson_authorised standardCompiler nestedPayload (Recorder.withTaken ["p1"])
  have hsteps : ∀ step ∈ mixedSession, step.isCompilation = true := by
    simp [mixedSession, Step.isCompilation]
  exact ⟨rfl, hcalls _ rfl, hsteps, rfl, hsession mixedSession hsteps mixedFilter rfl⟩

end RuleFilter
