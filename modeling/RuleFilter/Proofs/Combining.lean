import RuleFilter.Proofs.Authorised
import RuleFilter.Proofs.Meaning

/-! # Combining filters

A query joins each filter it is handed to everything before it, by extending a group or by wrapping
what it has into a new one (`Filter.combineAll`). The result has the truth of the filters joined
from the left and their comparisons in their order, whatever their shapes.

So the parts of a group are joined in two ways: the draft of the root is committed part by part, and
that of a nested group is attached as one filter. Both give the same filter unless the first of
several parts is a group of the same connective, which takes up the others instead of standing
beside them (`Filter.combineAll_eq_join?_iff`). -/

namespace RuleFilter

namespace Filter

variable {α : Type}

/-- A filter with others behind it, each combined with everything before it. -/
def combineAll (first : Filter α) (rest : List (Connective × Filter α)) : Filter α :=
  rest.foldl (fun f part => f.combine part.1 part.2) first

theorem combineAll_cons (first : Filter α) (part : Connective × Filter α)
    (rest : List (Connective × Filter α)) :
    combineAll first (part :: rest) = combineAll (first.combine part.1 part.2) rest := rfl

/-! ### What is kept by combining -/

/-- **The truth of combined filters is joined from the left.** -/
theorem truth_combineAll (holds : Predicate α → Truth) :
    ∀ (rest : List (Connective × Filter α)) (first : Filter α),
      (combineAll first rest).truth holds =
        (rest.map fun part => (part.1, part.2.truth holds)).foldl
          (fun before side => side.1.join before side.2) (first.truth holds)
  | [], _ => rfl
  | part :: rest, first => by
    rw [combineAll_cons, truth_combineAll holds rest, truth_combine, List.map_cons,
      List.foldl_cons]

theorem predicates_combineAll : ∀ (rest : List (Connective × Filter α)) (first : Filter α),
    (combineAll first rest).predicates =
      first.predicates ++ rest.flatMap fun part => part.2.predicates
  | [], _ => (List.append_nil _).symm
  | part :: rest, first => by
    rw [combineAll_cons, predicates_combineAll rest, predicates_combine, List.append_assoc,
      List.flatMap_cons]

theorem folded_combineAll : ∀ (rest : List (Connective × Filter α)) {first : Filter α},
    first.Folded → (∀ part ∈ rest, part.2.Folded) → (combineAll first rest).Folded
  | [], _, hfirst, _ => hfirst
  | part :: rest, _, hfirst, hrest => by
    obtain ⟨hpart, hrest⟩ := List.forall_mem_cons.mp hrest
    rw [combineAll_cons]
    exact folded_combineAll rest (folded_combine hfirst part.1 hpart) hrest

end Filter

/-! ### Filters added to a query -/

/-- The truth of several sides, each joined to all before it; the connective of the first one plays
no part. -/
def Truth.fromLeft : List (Connective × Truth) → Option Truth
  | [] => none
  | first :: rest => some (rest.foldl (fun before side => side.1.join before side.2) first.2)

namespace Query

/-- The query after filters were added to it, one after the other. -/
def addAll (q : Query) (parts : List (Connective × Filter String)) : Query :=
  parts.foldl (fun q part => q.add part.1 part.2) q

theorem addAll_some (bindings : Bindings) :
    ∀ (parts : List (Connective × Filter String)) (f : Filter String),
      addAll ⟨some f, bindings⟩ parts = ⟨some (f.combineAll parts), bindings⟩
  | [], _ => rfl
  | part :: rest, f => addAll_some bindings rest (f.combine part.1 part.2)

/-- The first filter stands as it is. -/
theorem filter_addAll_cons (part : Connective × Filter String)
    (rest : List (Connective × Filter String)) :
    (empty.addAll (part :: rest)).filter = some (part.2.combineAll rest) :=
  congrArg filter (addAll_some [] rest part.2)

/-- **A query combines what it is handed from the left.** However many filters are added to a new
query, of whatever shape and by whatever connectives: its truth is that of the filters joined from
the left, its comparisons and its placeholders are those of the filters in their order, and it is
folded if the filters are. -/
theorem addAll_from_left (parts : List (Connective × Filter String)) :
    (∀ holds : Predicate String → Truth,
      (empty.addAll parts).filter.map (Filter.truth holds) =
        Truth.fromLeft (parts.map fun part => (part.1, part.2.truth holds))) ∧
    ((empty.addAll parts).filter.toList.flatMap Filter.predicates =
      parts.flatMap fun part => part.2.predicates) ∧
    ((empty.addAll parts).placeholders = parts.flatMap fun part => part.2.references) ∧
    ((∀ part ∈ parts, part.2.Folded) → ∀ f ∈ (empty.addAll parts).filter, f.Folded) := by
  cases parts with
  | nil => exact ⟨fun _ => rfl, rfl, rfl, fun _ f hf => by cases hf⟩
  | cons first rest =>
    have hfilter := filter_addAll_cons first rest
    have hpredicates := Filter.predicates_combineAll rest first.2
    rw [hfilter]
    refine ⟨fun holds => ?truth, ?predicates, ?placeholders, fun hfolded f hf => ?folded⟩
    case truth => exact congrArg some (Filter.truth_combineAll holds rest first.2)
    case predicates =>
      rw [Option.toList_some, List.flatMap_singleton, hpredicates, List.flatMap_cons]
    case placeholders =>
      have hplaceholders : (empty.addAll (first :: rest)).placeholders =
          (first.2.combineAll rest).references := by
        unfold placeholders
        rw [hfilter]
      rw [hplaceholders, Filter.references, hpredicates, List.flatMap_append, List.flatMap_assoc,
        List.flatMap_cons]
      rfl
    case folded =>
      obtain ⟨hfirst, hrest⟩ := List.forall_mem_cons.mp hfolded
      obtain rfl := Option.some.inj hf
      exact Filter.folded_combineAll rest hfirst hrest

/-- A change of the connective brackets what came before it, and a group that is added stays one. -/
example (a b c d : Predicate String) :
    (empty.addAll [(.and, .leaf a), (.or, .leaf b), (.or, .group .or [.leaf c]),
        (.and, .leaf d)]).filter =
      some (.group .and [.group .or [.leaf a, .leaf b, .group .or [.leaf c]], .leaf d]) := by
  rfl

end Query

/-! ### Parts joined one by one and at once -/

namespace Filter

variable {α : Type}

/-- Filters that are all added by one connective. -/
def under (c : Connective) (fs : List (Filter α)) : List (Connective × Filter α) :=
  fs.map fun f => (c, f)

/-- A group of the connective takes up everything behind it. -/
theorem combineAll_group (c : Connective) : ∀ children rest : List (Filter α),
    combineAll (group c children) (under c rest) = group c (children ++ rest)
  | children, [] => by rw [List.append_nil]; rfl
  | children, other :: rest => by
    have hcombine : (group c children).combine c other = group c (children ++ [other]) :=
      if_pos rfl
    have hrest := combineAll_group c (children ++ [other]) rest
    rw [List.append_assoc, List.singleton_append] at hrest
    rw [under, List.map_cons, combineAll_cons, hcombine]
    exact hrest

/-- Anything else becomes the first part of a group of all of them. -/
theorem combineAll_of_not_group {c : Connective} {first : Filter α}
    (h : ∀ children, first ≠ group c children) (rest : List (Filter α)) :
    some (combineAll first (under c rest)) = join? c (first :: rest) := by
  cases rest with
  | nil => rfl
  | cons other rest =>
    have hcombine : first.combine c other = group c [first, other] := by
      cases first with
      | leaf p => rfl
      | group inner parts =>
        refine if_neg fun hinner => ?_
        exact h parts (hinner ▸ rfl)
    have hgroup := combineAll_group c [first, other] rest
    rw [under, List.map_cons, combineAll_cons, hcombine]
    exact congrArg some hgroup

/-- A group is not a part of itself. -/
theorem group_not_mem {c : Connective} {children : List (Filter α)} :
    group c children ∉ children := by
  intro h
  have hsize := List.sizeOf_lt_of_mem h
  simp only [group.sizeOf_spec] at hsize
  omega

/-- **One by one and at once agree but for one case**: several parts of which the first is a group
of the same connective. -/
theorem combineAll_eq_join?_iff {c : Connective} {first : Filter α} {rest : List (Filter α)} :
    some (combineAll first (under c rest)) = join? c (first :: rest) ↔
      ¬ (rest ≠ [] ∧ ∃ children, first = group c children) := by
  constructor
  · rintro h ⟨hrest, children, rfl⟩
    obtain ⟨other, others, rfl⟩ := List.exists_cons_of_ne_nil hrest
    rw [combineAll_group] at h
    have hparts : children ++ other :: others = [group c children] ++ other :: others :=
      (group.inj (Option.some.inj h)).2
    -- the group would have to be a part of itself
    have hself : children = [group c children] := List.append_cancel_right hparts
    have hmem : group c children ∈ [group c children] := List.mem_singleton_self _
    rw [← hself] at hmem
    exact group_not_mem hmem
  · intro h
    cases rest with
    | nil => rfl
    | cons other others =>
      exact combineAll_of_not_group (fun children hfirst => h ⟨by simp, children, hfirst⟩) _

/-- There is a joined filter as soon as there is a part. -/
theorem exists_join? (c : Connective) (first : Filter α) (rest : List (Filter α)) :
    ∃ joined, join? c (first :: rest) = some joined := by
  rw [← Option.ne_none_iff_exists', ne_eq, join?_eq_none_iff]
  simp

/-- **One by one and at once the parts have the same truth.** -/
theorem truth_combineAll_under (holds : Predicate α → Truth) (c : Connective) (first : Filter α) :
    ∀ rest : List (Filter α), some ((combineAll first (under c rest)).truth holds) =
      (join? c (first :: rest)).map (truth holds)
  | [] => rfl
  | other :: rest => by
    by_cases h : ∃ children, first = group c children
    · obtain ⟨children, rfl⟩ := h
      rw [combineAll_group, truth_join?, truth_group, List.map_append, Connective.joinAll_append,
        ← truth_group, ← Connective.joinAll_cons, ← List.map_cons]
      rfl
    · rw [← combineAll_of_not_group (fun children hfirst => h ⟨children, hfirst⟩), Option.map_some]

end Filter

/-! ### Drafts committed and attached -/

namespace Draft

/-- The draft of filters that were all added by one connective. -/
def staged (c : Connective) (parts : List (Filter String)) (bindings : Bindings) : Draft :=
  ⟨Filter.under c parts, bindings⟩

variable (c : Connective) (bindings : Bindings)

/-- A draft is committed to a query part by part, and then its names are bound. -/
theorem commit_staged (parts : List (Filter String)) (q : Query) :
    (staged c parts bindings).commit q =
      Sink.receiveAll (q.addAll (Filter.under c parts)) bindings.calls :=
  Sink.bindAll_eq_receiveAll (q.addAll (Filter.under c parts)) bindings

theorem attach_staged {σ : Type} [Sink σ] {parts : List (Filter String)} {joined : Filter String}
    (h : Filter.join? c parts = some joined) (sink : σ) (connective : Connective) :
    (staged c parts bindings).attach sink c connective =
      Sink.receiveAll sink (.add connective joined :: bindings.calls) := by
  have hparts : (staged c parts bindings).parts.map Prod.snd = parts := by
    simp [staged, Filter.under, Function.comp_def]
  unfold attach
  rw [hparts, h]
  exact Sink.bindAll_eq_receiveAll (Sink.add sink connective joined) bindings

theorem receiveAll_binds (d : Draft) :
    Sink.receiveAll d bindings.calls = ⟨d.parts, d.bindings ++ bindings⟩ := by
  rw [← Sink.bindAll_eq_receiveAll, bindAll_eq]

end Draft

theorem Query.filter_binds : ∀ (bindings : Bindings) (q : Query),
    (Sink.receiveAll q bindings.calls).filter = q.filter
  | [], _ => rfl
  | b :: rest, q => filter_binds rest (q.bind b.1 b.2)

/-- **The draft of a group is committed to a new query as it is attached to a parent**, but for one
case. Attaching hands over the joined filter and then the bindings. Committing gives the same filter
unless there are several parts and the first of them is a group of the same connective, which then
takes up the other parts. In every case the two filters have the same truth and the same comparisons
in the same order, and distinct names are bound alike. -/
theorem Draft.commit_agrees_with_attach (c : Connective) (first : Filter String)
    (rest : List (Filter String)) (bindings : Bindings) :
    ∃ committed joined : Filter String,
      ((staged c (first :: rest) bindings).commit Query.empty).filter = some committed ∧
      Filter.join? c (first :: rest) = some joined ∧
      (∀ {σ : Type} [Sink σ] (sink : σ) (connective : Connective),
        (staged c (first :: rest) bindings).attach sink c connective =
          Sink.receiveAll sink (.add connective joined :: bindings.calls)) ∧
      (committed = joined ↔ ¬ (rest ≠ [] ∧ ∃ children, first = .group c children)) ∧
      (∀ children, rest ≠ [] → first = .group c children →
        committed = .group c (children ++ rest)) ∧
      (∀ holds, committed.truth holds = joined.truth holds) ∧
      committed.predicates = joined.predicates ∧
      (bindings.names.Nodup →
        ((staged c (first :: rest) bindings).commit Query.empty).bindings = bindings ∧
        ∀ (parent : Draft) (connective : Connective),
          ((staged c (first :: rest) bindings).attach parent c connective).bindings =
            parent.bindings ++ bindings) := by
  obtain ⟨joined, hjoined⟩ := Filter.exists_join? c first rest
  have hadded : Query.empty.addAll (Filter.under c (first :: rest)) =
      ⟨some (first.combineAll (Filter.under c rest)), []⟩ :=
    Query.addAll_some [] (Filter.under c rest) first
  refine ⟨first.combineAll (Filter.under c rest), joined, ?filter, hjoined,
    fun sink connective => attach_staged c bindings hjoined sink connective, ?agree, ?absorb,
    fun holds => ?truth, ?predicates,
    fun hnodup => ⟨?committed, fun parent connective => ?attached⟩⟩
  case filter => rw [commit_staged, Query.filter_binds, hadded]
  case agree => rw [← Filter.combineAll_eq_join?_iff, hjoined, Option.some.injEq]
  case absorb =>
    rintro children - rfl
    exact Filter.combineAll_group c children rest
  case truth =>
    have htruth := Filter.truth_combineAll_under holds c first rest
    rw [hjoined] at htruth
    exact Option.some.inj htruth
  case predicates =>
    have hpredicates := Filter.predicates_join? c (first :: rest)
    rw [hjoined, Option.toList_some, List.flatMap_singleton] at hpredicates
    rw [Filter.predicates_combineAll, hpredicates, Filter.under, List.flatMap_map,
      List.flatMap_cons]
  case committed =>
    have hfree : ∀ name ∈ bindings.names, name ∉ Bindings.names [] := fun _ _ h => by cases h
    rw [commit_staged, hadded, Query.receiveAll_binds bindings _ hnodup hfree]
    rfl
  case attached =>
    rw [attach_staged c bindings hjoined]
    exact congrArg Draft.bindings (receiveAll_binds bindings (Sink.add parent connective joined))

/-- A group of the same connective stays a part behind the first one, but not in its place. -/
example (a b c : Predicate String) :
    ((Draft.staged .and [.leaf a, .group .and [.leaf b, .leaf c]] []).commit Query.empty).filter =
        some (.group .and [.leaf a, .group .and [.leaf b, .leaf c]]) ∧
      ((Draft.staged .and [.group .and [.leaf b, .leaf c], .leaf a] []).commit Query.empty).filter =
        some (.group .and [.leaf b, .leaf c, .leaf a]) := by
  exact ⟨rfl, rfl⟩

end RuleFilter
