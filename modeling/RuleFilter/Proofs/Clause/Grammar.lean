import RuleFilter.Proofs.Clause.Comparing

/-! # The grammar of a clause

A clause is a disjunction of conjunctions of parts; a part is a comparison or a clause in brackets.
So `AND` binds tighter than `OR`, and an `AND` inside a comparison is no connective. Filters joined
by one connective are the parts of one group, and a single one stands for itself (`Filter.join?`).

The tokens of a well-formed filter are a clause for it (`isClause_tokens`), and every clause is one
for a well-formed filter (`IsClause.isWellFormed`). -/

namespace RuleFilter.Clause

/-- How tightly the connectives in a piece of a clause bind that are not in brackets. -/
inductive Level where
  /-- There is no connective. -/
  | part
  /-- Every connective is `AND`. -/
  | conjunction
  | disjunction

/-- Tokens spell the filters that the connective of their level joins; a part spells one filter. -/
inductive Spells : Level → List Token → List (Filter String) → Prop
  | comparison {p : Predicate String} (well : p.isWellFormed) : Spells .part p.tokens [.leaf p]
  | brackets {ts : List Token} {gs : List (Filter String)} {f : Filter String}
      (inner : Spells .disjunction ts gs) (joined : Filter.join? .or gs = some f) :
      Spells .part (.opening :: ts ++ [.closing]) [f]
  | conjunct {ts : List Token} {f : Filter String} (part : Spells .part ts [f]) :
      Spells .conjunction ts [f]
  | and {ss ts : List Token} {fs : List (Filter String)} {f : Filter String}
      (before : Spells .conjunction ss fs) (part : Spells .part ts [f]) :
      Spells .conjunction (ss ++ .word "AND" :: ts) (fs ++ [f])
  | alternative {ts : List Token} {fs : List (Filter String)} {g : Filter String}
      (conjunction : Spells .conjunction ts fs) (joined : Filter.join? .and fs = some g) :
      Spells .disjunction ts [g]
  | or {ss ts : List Token} {fs gs : List (Filter String)} {g : Filter String}
      (before : Spells .disjunction ss gs) (conjunction : Spells .conjunction ts fs)
      (joined : Filter.join? .and fs = some g) :
      Spells .disjunction (ss ++ .word "OR" :: ts) (gs ++ [g])

/-- The tokens are a clause for the filter. -/
def IsClause (ts : List Token) (f : Filter String) : Prop :=
  ∃ gs, Spells .disjunction ts gs ∧ Filter.join? .or gs = some f

/-! ### The clause of a filter -/

namespace Spells

theorem isClause {ts : List Token} {f : Filter String} (h : Spells .part ts [f]) :
    IsClause ts f :=
  ⟨[f], .alternative (.conjunct h) rfl, rfl⟩

/-- A conjunction with more parts behind it. -/
theorem conjunction_flatMap {ts : List Token} {fs : List (Filter String)}
    (h : Spells .conjunction ts fs) (parts : List (Filter String))
    (hparts : ∀ part ∈ parts, Spells .part part.partTokens [part]) :
    Spells .conjunction (ts ++ parts.flatMap fun part => .word "AND" :: part.partTokens)
      (fs ++ parts) := by
  induction parts generalizing ts fs with
  | nil => simpa using h
  | cons part rest ih =>
    obtain ⟨hpart, hrest⟩ := List.forall_mem_cons.mp hparts
    simpa using ih (h.and hpart) hrest

/-- A disjunction with more parts behind it. -/
theorem disjunction_flatMap {ts : List Token} {gs : List (Filter String)}
    (h : Spells .disjunction ts gs) (parts : List (Filter String))
    (hparts : ∀ part ∈ parts, Spells .part part.partTokens [part]) :
    Spells .disjunction (ts ++ parts.flatMap fun part => .word "OR" :: part.partTokens)
      (gs ++ parts) := by
  induction parts generalizing ts gs with
  | nil => simpa using h
  | cons part rest ih =>
    obtain ⟨hpart, hrest⟩ := List.forall_mem_cons.mp hparts
    simpa using ih (h.or (.conjunct hpart) rfl) hrest

end Spells

/-- A group of two parts at least is a clause as soon as each of its parts is one. -/
theorem isClause_group {c : Connective} {first second : Filter String}
    {rest : List (Filter String)} (hparts : ∀ part ∈ first :: second :: rest,
      Spells .part part.partTokens [part]) :
    IsClause (Filter.group c (first :: second :: rest)).tokens
      (.group c (first :: second :: rest)) := by
  obtain ⟨hfirst, hrest⟩ := List.forall_mem_cons.mp hparts
  rw [Filter.tokens_group]
  cases c with
  | and =>
    have hchain := (Spells.conjunct hfirst).conjunction_flatMap (second :: rest) hrest
    exact ⟨_, .alternative hchain rfl, rfl⟩
  | or =>
    have hchain :=
      (Spells.alternative (.conjunct hfirst) rfl).disjunction_flatMap (second :: rest) hrest
    exact ⟨_, hchain, rfl⟩

/-- **The tokens of a well-formed filter are a clause for it.** -/
theorem isClause_tokens (f : Filter String) (hf : f.isWellFormed) : IsClause f.tokens f := by
  induction f with
  | leaf p => exact (Spells.comparison hf).isClause
  | group c parts ih =>
    obtain ⟨htwo, hparts⟩ := (Filter.isWellFormed_group c parts).mp hf
    have hspells : ∀ part ∈ parts, Spells .part part.partTokens [part] := by
      intro part hmem
      cases part with
      | leaf p => exact .comparison (hparts _ hmem)
      | group c' inner =>
        obtain ⟨gs, hinner, hjoined⟩ := ih _ hmem (hparts _ hmem)
        exact .brackets hinner hjoined
    match parts, htwo with
    | first :: second :: rest, _ => exact isClause_group hspells

/-! ### The filter of a clause -/

theorem isWellFormed_of_join? {c : Connective} {f : Filter String} :
    ∀ {fs : List (Filter String)}, Filter.join? c fs = some f → (∀ g ∈ fs, g.isWellFormed) →
      f.isWellFormed
  | [], hjoined, _ => by cases hjoined
  | [g], hjoined, hfs => by
    cases hjoined
    exact hfs f (by simp)
  | g :: h :: rest, hjoined, hfs => by
    cases hjoined
    exact (Filter.isWellFormed_group c _).mpr ⟨by simp, hfs⟩

theorem Spells.isWellFormed {level : Level} {ts : List Token} {fs : List (Filter String)}
    (h : Spells level ts fs) : ∀ f ∈ fs, f.isWellFormed := by
  induction h with
  | comparison hp => exact List.forall_mem_singleton.mpr hp
  | brackets _ hjoined ih =>
    exact List.forall_mem_singleton.mpr (isWellFormed_of_join? hjoined ih)
  | conjunct _ ih => exact ih
  | and _ _ ihbefore ihpart =>
    exact List.forall_mem_append.mpr ⟨ihbefore, ihpart⟩
  | alternative _ hjoined ih =>
    exact List.forall_mem_singleton.mpr (isWellFormed_of_join? hjoined ih)
  | or _ _ hjoined ihbefore ihconjunction =>
    refine List.forall_mem_append.mpr ⟨ihbefore, ?_⟩
    exact List.forall_mem_singleton.mpr (isWellFormed_of_join? hjoined ihconjunction)

/-- **Every clause is one for a well-formed filter.** -/
theorem IsClause.isWellFormed {ts : List Token} {f : Filter String} (h : IsClause ts f) :
    f.isWellFormed := by
  obtain ⟨gs, hspells, hjoined⟩ := h
  exact isWellFormed_of_join? hjoined hspells.isWellFormed

end RuleFilter.Clause
