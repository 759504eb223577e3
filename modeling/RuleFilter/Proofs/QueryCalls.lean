import RuleFilter.Proofs.Delivery

/-! # Queries as sinks

Binding a name changes the value of that name only (`lookup_assign`), and never makes a name occur
twice (`nodup_assign`). The names of a delivery are fresh, so a delivery lengthens the bindings of a
query and touches none of them (`receiveAll_delivery`). -/

namespace RuleFilter

/-! ### Bindings -/

namespace Bindings

@[simp]
theorem names_append (xs ys : Bindings) : (xs ++ ys).names = xs.names ++ ys.names :=
  List.map_append

theorem lookup_eq_none_iff {bindings : Bindings} {name : String} :
    bindings.lookup name = none ↔ name ∉ bindings.names := by
  rw [List.lookup_eq_none_iff]
  unfold names
  constructor
  · intro h hmem
    obtain ⟨b, hb, rfl⟩ := List.mem_map.mp hmem
    simpa using h b hb
  · intro h b hb
    simpa using fun heq : name = b.1 => h (heq ▸ List.mem_map_of_mem hb)

theorem lookup_cons_eq (n m : String) (v : Value) (rest : Bindings) :
    List.lookup n ((m, v) :: rest) = if n = m then some v else rest.lookup n := by
  rw [List.lookup_cons]
  by_cases h : n = m
  · simp [h]
  · simp [h, beq_eq_false_iff_ne.mpr h]

theorem lookup_of_mem : ∀ {bindings : Bindings}, bindings.names.Nodup →
    ∀ b ∈ bindings, bindings.lookup b.1 = some b.2
  | [], _, _, hb => by cases hb
  | (m, v) :: rest, hnodup, b, hb => by
    obtain ⟨hm, hrest⟩ := List.nodup_cons.mp hnodup
    rw [lookup_cons_eq]
    rcases List.mem_cons.mp hb with rfl | hb
    · rw [if_pos rfl]
    · have hmem : b.1 ∈ Bindings.names rest := List.mem_map_of_mem hb
      have hne : b.1 ≠ m := fun heq => hm (heq ▸ hmem)
      rw [if_neg hne, lookup_of_mem hrest b hb]

theorem lookup_assign (name n : String) (value : Value) : ∀ bindings : Bindings,
    (bindings.assign name value).lookup n = if n = name then some value else bindings.lookup n
  | [] => lookup_cons_eq n name value []
  | (m, v) :: rest => by
    unfold assign
    by_cases hm : m = name
    · subst hm
      rw [if_pos rfl, lookup_cons_eq, lookup_cons_eq]
      split_ifs <;> rfl
    · rw [if_neg hm, lookup_cons_eq, lookup_cons_eq, lookup_assign name n value rest]
      by_cases h : n = m
      · subst h
        rw [if_pos rfl, if_neg hm, if_pos rfl]
      · rw [if_neg h, if_neg h]

theorem assign_of_not_mem {name : String} {value : Value} : ∀ {bindings : Bindings},
    name ∉ bindings.names → bindings.assign name value = bindings ++ [(name, value)]
  | [], _ => rfl
  | (m, v) :: rest, h => by
    have hm : m ≠ name := fun heq => h (by simp [names, heq])
    have hrest : name ∉ Bindings.names rest := fun hmem => h (List.mem_cons_of_mem _ hmem)
    unfold assign
    rw [if_neg hm, assign_of_not_mem hrest, List.cons_append]

theorem names_assign_of_mem {name : String} (value : Value) : ∀ {bindings : Bindings},
    name ∈ bindings.names → (bindings.assign name value).names = bindings.names
  | [], h => by cases h
  | (m, v) :: rest, h => by
    unfold assign
    by_cases hm : m = name
    · rw [if_pos hm]
      simp [names, hm]
    · have hrest : name ∈ Bindings.names rest := by
        rcases List.mem_cons.mp h with heq | hmem
        · exact absurd heq.symm hm
        · exact hmem
      have ih := names_assign_of_mem value hrest
      rw [if_neg hm]
      unfold names at ih ⊢
      rw [List.map_cons, List.map_cons, ih]

/-- **No name is bound twice.** -/
theorem nodup_assign {bindings : Bindings} (h : bindings.names.Nodup) (name : String)
    (value : Value) : (bindings.assign name value).names.Nodup := by
  by_cases hmem : name ∈ bindings.names
  · rwa [names_assign_of_mem value hmem]
  · rw [assign_of_not_mem hmem, names_append]
    exact FieldList.nodup_append_singleton h hmem

end Bindings

/-! ### Queries -/

namespace Query

@[simp]
theorem boundNames_eq (q : Query) : Sink.boundNames q = q.bindings.names := rfl

/-- The filter with another one joined to it; the first one stands as it is. -/
def joined (c : Connective) (before : Option (Filter String)) (f : Filter String) :
    Option (Filter String) :=
  some (match before with
    | none => f
    | some before => before.combine c f)

theorem receiveAll_adds (c : Connective) : ∀ (filters : List (Filter String)) (q : Query),
    Sink.receiveAll q (filters.map (.add c)) = ⟨filters.foldl (joined c) q.filter, q.bindings⟩
  | [], _ => rfl
  | f :: rest, q => receiveAll_adds c rest (q.add c f)

theorem receiveAll_binds : ∀ (bindings : Bindings) (q : Query), bindings.names.Nodup →
    (∀ name ∈ bindings.names, name ∉ q.bindings.names) →
      Sink.receiveAll q bindings.calls = ⟨q.filter, q.bindings ++ bindings⟩
  | [], q, _, _ => by simp [Bindings.calls, Sink.receiveAll]
  | b :: rest, q, hnodup, hfree => by
    obtain ⟨hb, hrest⟩ := List.nodup_cons.mp hnodup
    have hbind : q.bind b.1 b.2 = ⟨q.filter, q.bindings ++ [b]⟩ := by
      unfold bind
      rw [Bindings.assign_of_not_mem (hfree b.1 List.mem_cons_self)]
    have hfree' : ∀ name ∈ Bindings.names rest, name ∉ Bindings.names (q.bindings ++ [b]) := by
      intro name hname hmem
      rw [Bindings.names_append, List.mem_append] at hmem
      rcases hmem with hmem | hmem
      · exact hfree name (List.mem_cons_of_mem _ hname) hmem
      · exact hb (List.mem_singleton.mp hmem ▸ hname)
    have ih := receiveAll_binds rest ⟨q.filter, q.bindings ++ [b]⟩ hrest hfree'
    show Sink.receiveAll (q.bind b.1 b.2) (Bindings.calls rest) = _
    rw [hbind, ih, List.append_assoc, List.singleton_append]

/-- **A delivery of fresh names lengthens the bindings.** -/
theorem receiveAll_delivery {q : Query} {c : Connective} {filters : List (Filter String)}
    {bindings : Bindings} (hnodup : bindings.names.Nodup)
    (hfree : ∀ name ∈ bindings.names, name ∉ q.bindings.names) :
    Sink.receiveAll q (Call.delivery c filters bindings) =
      ⟨filters.foldl (joined c) q.filter, q.bindings ++ bindings⟩ := by
  unfold Call.delivery
  rw [Sink.receiveAll_append, receiveAll_adds]
  exact receiveAll_binds bindings _ hnodup hfree

/-! ### Placeholders with values -/

/-- Every placeholder of the filter has a value. -/
def Bound (q : Query) : Prop :=
  ∀ name ∈ q.placeholders, ∃ value, q.value? name = some value

/-- The bindings of one query stand in front of those of another, and what comes behind them are
names that had no value. -/
def Extends (q q' : Query) : Prop :=
  ∃ new : Bindings, q'.bindings = q.bindings ++ new ∧ ∀ name ∈ new.names, q.value? name = none

theorem exists_value?_iff {q : Query} {name : String} :
    (∃ value, q.value? name = some value) ↔ name ∈ q.bindings.names := by
  rw [← Option.isSome_iff_exists, Option.isSome_iff_ne_none, ne_eq]
  unfold value?
  rw [Bindings.lookup_eq_none_iff, not_not]

theorem bound_iff {q : Query} : q.Bound ↔ ∀ name ∈ q.placeholders, name ∈ q.bindings.names := by
  unfold Bound
  simp only [exists_value?_iff]

theorem placeholders_foldl_joined (c : Connective) (bindings : Bindings) :
    ∀ (filters : List (Filter String)) (before : Option (Filter String)),
      placeholders ⟨filters.foldl (joined c) before, bindings⟩ =
        placeholders ⟨before, bindings⟩ ++ filters.flatMap Filter.references
  | [], _ => (List.append_nil _).symm
  | f :: rest, before => by
    have hjoined : placeholders ⟨joined c before f, bindings⟩ =
        placeholders ⟨before, bindings⟩ ++ f.references := by
      cases before with
      | none => rfl
      | some before => exact Filter.references_combine before c f
    rw [List.foldl_cons, placeholders_foldl_joined c bindings rest, hjoined, List.flatMap_cons,
      List.append_assoc]

end Query

/-! ### Plans delivered to a query -/

namespace Compiler

variable (compiler : Compiler) (c : Connective) (parts : List Plan)

/-- The filters of a plan joined to the one of a query, and the bindings of the plan behind those of
the query. -/
def delivered (q : Query) : Query :=
  ⟨(compiler.filtersOf q.bindings.names parts).foldl (Query.joined c) q.filter,
    q.bindings ++ compiler.bindingsOf q.bindings.names parts⟩

/-- **A query ends with the plan of a rule tree delivered to it.** -/
theorem compileNode_query (condition : Option String) (rules : List RuleNode) (q : Query) :
    (compiler.compileNode (.group condition rules) q).result =
      compiler.connectiveOf condition >>= fun c => (compiler.planAll rules).result >>= fun parts =>
        .ok (compiler.delivered c parts q) := by
  rw [compileNode_result, Query.boundNames_eq, calls_group]
  cases compiler.connectiveOf condition with
  | error e => rfl
  | ok c =>
    cases (compiler.planAll rules).result with
    | error e => rfl
    | ok parts =>
      exact congrArg Except.ok (Query.receiveAll_delivery (compiler.nodup_bindingsOf _ parts)
        (compiler.bindingsOf_free _ parts))

theorem extends_delivered (q : Query) : q.Extends (compiler.delivered c parts q) := by
  refine ⟨compiler.bindingsOf q.bindings.names parts, rfl, fun name hname => ?_⟩
  exact Bindings.lookup_eq_none_iff.mpr (compiler.bindingsOf_free _ parts name hname)

/-- **A delivery leaves no placeholder without a value** if there was none before it. -/
theorem bound_delivered {q : Query} (hq : q.Bound) : (compiler.delivered c parts q).Bound := by
  have hplaceholders : (compiler.delivered c parts q).placeholders =
      q.placeholders ++ (compiler.bindingsOf q.bindings.names parts).names := by
    rw [names_bindingsOf]
    exact Query.placeholders_foldl_joined c _ _ q.filter
  have hnames : (compiler.delivered c parts q).bindings.names =
      q.bindings.names ++ (compiler.bindingsOf q.bindings.names parts).names :=
    Bindings.names_append _ _
  rw [Query.bound_iff] at hq ⊢
  intro name hname
  rw [hplaceholders, List.mem_append] at hname
  rw [hnames, List.mem_append]
  exact hname.imp (hq name) id

end Compiler

end RuleFilter
