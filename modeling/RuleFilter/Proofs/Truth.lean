import RuleFilter.Proofs.Collapse

/-! # Truth of filters

SQL knows three truth values. Each connective is associative with a neutral value, so a group may be
read as a fold over its parts (`Connective.joinAll`), and neither adding a filter behind another one
(`truth_combine`) nor joining the parts of a group (`truth_join?`) needs to know how the parts are
bracketed. -/

namespace RuleFilter

/-! ### Truth values -/

/-- The truth values of SQL. -/
inductive Truth where
  | no
  | unknown
  | yes
  deriving DecidableEq

namespace Truth

/-- `AND`: no if one side is, yes if both are. -/
def and : Truth → Truth → Truth
  | .no, _ => .no
  | .unknown, .no => .no
  | .unknown, _ => .unknown
  | .yes, t => t

/-- `OR`: yes if one side is, no if both are. -/
def or : Truth → Truth → Truth
  | .yes, _ => .yes
  | .unknown, .yes => .yes
  | .unknown, _ => .unknown
  | .no, t => t

end Truth

namespace Connective

/-- The truth of two sides under a connective. -/
def join : Connective → Truth → Truth → Truth
  | .and => Truth.and
  | .or => Truth.or

/-- The truth of no sides at all. -/
def neutral : Connective → Truth
  | .and => .yes
  | .or => .no

/-- The truth of all parts of a group. -/
def joinAll (c : Connective) (ts : List Truth) : Truth :=
  ts.foldr c.join c.neutral

/-- The truth of all parts of a group; none without parts. -/
def joinAll? (c : Connective) (ts : List Truth) : Option Truth :=
  if ts = [] then none else some (c.joinAll ts)

/-- The truth of what follows, joined to what comes before it, if anything does. -/
def after (c : Connective) (before : Option Truth) (t : Truth) : Truth :=
  match before with
  | none => t
  | some b => c.join b t

variable (c : Connective)

theorem join_assoc (a b d : Truth) : c.join (c.join a b) d = c.join a (c.join b d) := by
  cases c <;> cases a <;> cases b <;> cases d <;> rfl

@[simp]
theorem join_neutral (a : Truth) : c.join a c.neutral = a := by
  cases c <;> cases a <;> rfl

@[simp]
theorem neutral_join (a : Truth) : c.join c.neutral a = a := by
  cases c <;> cases a <;> rfl

theorem joinAll_cons (t : Truth) (ts : List Truth) :
    c.joinAll (t :: ts) = c.join t (c.joinAll ts) := rfl

theorem joinAll_append : ∀ xs ys : List Truth,
    c.joinAll (xs ++ ys) = c.join (c.joinAll xs) (c.joinAll ys)
  | [], ys => (c.neutral_join _).symm
  | x :: xs, ys => by
    rw [List.cons_append, joinAll_cons, joinAll_cons, joinAll_append xs ys, join_assoc]

@[simp]
theorem joinAll_singleton (t : Truth) : c.joinAll [t] = t :=
  c.join_neutral t

@[simp]
theorem joinAll?_eq_none_iff {ts : List Truth} : c.joinAll? ts = none ↔ ts = [] := by
  unfold joinAll?
  split_ifs with h <;> simp [h]

/-- **Parts may be joined one by one to what comes before them**, or all at once. -/
theorem foldl_after : ∀ (ts : List Truth) (before : Option Truth),
    ts.foldl (fun o t => some (c.after o t)) before =
      match c.joinAll? ts with
      | none => before
      | some t => some (c.after before t)
  | [], _ => rfl
  | t :: ts, before => by
    have hcons : c.joinAll? (t :: ts) = some (c.join t (c.joinAll ts)) := rfl
    rw [List.foldl_cons, foldl_after ts, hcons]
    cases ts with
    | nil => simp [joinAll?, joinAll]
    | cons u us =>
      cases before with
      | none => rfl
      | some b => exact congrArg some (c.join_assoc b t _)

end Connective

/-! ### Filters -/

namespace Filter

variable {α β : Type}

mutual

/-- The truth of a filter whose comparisons have some truth. -/
def truth (holds : Predicate α → Truth) : Filter α → Truth
  | .leaf p => holds p
  | .group c parts => c.joinAll (truthAll holds parts)

/-- The truth of several filters. -/
def truthAll (holds : Predicate α → Truth) : List (Filter α) → List Truth
  | [] => []
  | part :: rest => part.truth holds :: truthAll holds rest

end

variable (holds : Predicate α → Truth)

theorem truthAll_eq : ∀ parts : List (Filter α), truthAll holds parts = parts.map (truth holds)
  | [] => rfl
  | part :: rest => by rw [truthAll, truthAll_eq rest, List.map_cons]

theorem truth_group (c : Connective) (parts : List (Filter α)) :
    (group c parts).truth holds = c.joinAll (parts.map (truth holds)) := by
  rw [truth, truthAll_eq]

variable {holds}

/-- The truth of a filter hangs on its own comparisons alone. -/
theorem truth_congr {holds' : Predicate α → Truth} {f : Filter α} :
    (∀ p ∈ f.predicates, holds p = holds' p) → f.truth holds = f.truth holds' := by
  induction f with
  | leaf p =>
    intro h
    exact h p (by simp)
  | group c parts ih =>
    intro h
    rw [truth_group, truth_group]
    refine congrArg c.joinAll (List.map_congr_left fun part hpart => ih part hpart fun p hp => ?_)
    refine h p ?_
    rw [predicates_group]
    exact List.mem_flatMap.mpr ⟨part, hpart, hp⟩

variable (holds)

theorem truth_map (g : β → α) (f : Filter β) :
    (f.map g).truth holds = f.truth fun p => holds (p.map g) := by
  induction f with
  | leaf p => rfl
  | group c parts ih =>
    rw [map_group, truth_group, truth_group, List.map_map]
    exact congrArg c.joinAll (List.map_congr_left ih)

/-- **A filter added behind another one is joined to it**, whether the other one is extended or
bracketed. -/
theorem truth_combine (f : Filter α) (c : Connective) (other : Filter α) :
    (f.combine c other).truth holds = c.join (f.truth holds) (other.truth holds) := by
  cases f with
  | leaf p =>
    rw [combine, truth_group, List.map_cons, Connective.joinAll_cons, List.map_singleton,
      Connective.joinAll_singleton]
  | group inner parts =>
    rw [combine]
    split_ifs with h
    · rw [h, truth_group, truth_group, List.map_append, Connective.joinAll_append,
        List.map_singleton, Connective.joinAll_singleton]
    · rw [truth_group, List.map_cons, Connective.joinAll_cons, List.map_singleton,
        Connective.joinAll_singleton]

/-- **The truth of joined parts is the joined truth of the parts.** -/
theorem truth_join? (c : Connective) : ∀ parts : List (Filter α),
    (join? c parts).map (truth holds) = c.joinAll? (parts.map (truth holds))
  | [] => rfl
  | [_] => congrArg some (c.joinAll_singleton _).symm
  | a :: b :: rest => congrArg some (truth_group holds c (a :: b :: rest))

end Filter

end RuleFilter
