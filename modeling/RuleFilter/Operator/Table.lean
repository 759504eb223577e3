import RuleFilter.Operator.Basic

/-! # Operator tables

The operators that rules may name, sorted by name. The standard table holds the twenty operators of
query-builder widgets. -/

namespace RuleFilter

/-- Operators sorted by name, so each name occurs once. -/
structure OperatorTable where
  operators : List Operator
  sorted : operators.Pairwise fun o p => o.name < p.name

namespace OperatorTable

/-- Puts an operator in its place, instead of one of the same name. -/
def place (o : Operator) : List Operator → List Operator
  | [] => [o]
  | p :: rest =>
    if o.name < p.name then o :: p :: rest
    else if o.name = p.name then o :: rest
    else p :: place o rest

theorem mem_place {o q : Operator} {l : List Operator} (h : q ∈ place o l) : q = o ∨ q ∈ l := by
  fun_induction place o l with
  | case1 => simpa using h
  | case2 p rest _ => simpa using h
  | case3 p rest _ _ =>
    rcases List.mem_cons.1 h with rfl | h
    · exact .inl rfl
    · exact .inr (List.mem_cons_of_mem _ h)
  | case4 p rest _ _ ih =>
    rcases List.mem_cons.1 h with rfl | h
    · exact .inr List.mem_cons_self
    · exact (ih h).imp id (List.mem_cons_of_mem _)

theorem sorted_place {o : Operator} {l : List Operator}
    (h : l.Pairwise fun o p => o.name < p.name) :
    (place o l).Pairwise fun o p => o.name < p.name := by
  fun_induction place o l with
  | case1 => simp
  | case2 p rest lt =>
    refine List.pairwise_cons.2 ⟨fun q hq => ?_, h⟩
    rcases List.mem_cons.1 hq with rfl | hq
    · exact lt
    · exact String.lt_trans lt ((List.pairwise_cons.1 h).1 q hq)
  | case3 p rest _ eq =>
    obtain ⟨first, rest⟩ := List.pairwise_cons.1 h
    exact List.pairwise_cons.2 ⟨fun q hq => eq ▸ first q hq, rest⟩
  | case4 p rest notLt ne ih =>
    obtain ⟨first, rest⟩ := List.pairwise_cons.1 h
    refine List.pairwise_cons.2 ⟨fun q hq => ?_, ih rest⟩
    rcases mem_place hq with rfl | hq
    · exact Std.lt_of_le_of_ne (String.not_lt.1 notLt) (Ne.symm ne)
    · exact first q hq

/-- No operators. -/
def empty : OperatorTable :=
  ⟨[], .nil⟩

/-- The table with one operator more. -/
def insert (table : OperatorTable) (o : Operator) : OperatorTable :=
  ⟨place o table.operators, sorted_place table.sorted⟩

/-- The table of the given operators; of several with one name the last counts. -/
def ofList (operators : List Operator) : OperatorTable :=
  operators.foldl insert empty

/-- The operator of this name. -/
def find? (table : OperatorTable) (name : String) : Option Operator :=
  table.operators.find? fun o => o.name = name

/-- Whether there is an operator of this name. -/
def contains (table : OperatorTable) (name : String) : Bool :=
  (table.find? name).isSome

/-- Any sequence of characters, in a pattern of `LIKE`. -/
def wildcard : Option String :=
  some "%"

/-- The operators of query-builder widgets. -/
def standard : OperatorTable :=
  ofList
    [ ⟨"equal", .equal, true, .empty⟩,
      ⟨"not_equal", .notEqual, true, .empty⟩,
      ⟨"in", .isIn, true, .empty⟩,
      ⟨"not_in", .notIn, true, .empty⟩,
      ⟨"less", .less, true, .empty⟩,
      ⟨"less_or_equal", .lessOrEqual, true, .empty⟩,
      ⟨"greater", .greater, true, .empty⟩,
      ⟨"greater_or_equal", .greaterOrEqual, true, .empty⟩,
      ⟨"between", .between, true, .empty⟩,
      ⟨"not_between", .notBetween, true, .empty⟩,
      ⟨"begins_with", .like, true, ⟨none, wildcard⟩⟩,
      ⟨"not_begins_with", .notLike, true, ⟨none, wildcard⟩⟩,
      ⟨"contains", .like, true, ⟨wildcard, wildcard⟩⟩,
      ⟨"not_contains", .notLike, true, ⟨wildcard, wildcard⟩⟩,
      ⟨"ends_with", .like, true, ⟨wildcard, none⟩⟩,
      ⟨"not_ends_with", .notLike, true, ⟨wildcard, none⟩⟩,
      ⟨"is_empty", .equal, false, .empty⟩,
      ⟨"is_not_empty", .notEqual, false, .empty⟩,
      ⟨"is_null", .isNull, false, .empty⟩,
      ⟨"is_not_null", .isNotNull, false, .empty⟩ ]

end OperatorTable

end RuleFilter
