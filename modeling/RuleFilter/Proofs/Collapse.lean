import RuleFilter.Proofs.References

/-! # Collapsed filters

A group without parts vanishes and a group of one part is that part, from the inside out. What is
left has the comparisons of the whole in their order (`predicates_collapse`). -/

namespace RuleFilter.Filter

variable {α : Type}

mutual

/-- The filter with every group joined; none if no comparison is left. -/
def collapse : Filter α → Option (Filter α)
  | .leaf p => some (.leaf p)
  | .group c parts => join? c (collapseAll parts)

/-- The filters that are left of several. -/
def collapseAll : List (Filter α) → List (Filter α)
  | [] => []
  | part :: rest => part.collapse.toList ++ collapseAll rest

end

theorem collapseAll_eq : ∀ parts : List (Filter α),
    collapseAll parts = parts.flatMap fun part => part.collapse.toList
  | [] => rfl
  | part :: rest => by rw [collapseAll, collapseAll_eq rest, List.flatMap_cons]

theorem collapse_group (c : Connective) (parts : List (Filter α)) :
    (group c parts).collapse = join? c (collapseAll parts) := rfl

/-- A group by itself comes down to what is left of its parts, joined. -/
theorem collapseAll_group (c : Connective) (parts : List (Filter α)) :
    collapseAll [group c parts] = (join? c (collapseAll parts)).toList := by
  rw [collapseAll_eq, List.flatMap_singleton, collapse_group]

theorem collapseAll_append (xs ys : List (Filter α)) :
    collapseAll (xs ++ ys) = collapseAll xs ++ collapseAll ys := by
  simp only [collapseAll_eq, List.flatMap_append]

theorem collapseAll_map_of {β : Type} (g : α → β) {fs : List (Filter α)}
    (h : ∀ f ∈ fs, (f.map g).collapse = f.collapse.map (map g)) :
    collapseAll (fs.map (map g)) = (collapseAll fs).map (map g) := by
  rw [collapseAll_eq, collapseAll_eq, List.flatMap_map, List.map_flatMap]
  exact List.flatMap_congr fun f hf => by rw [h f hf, Option.toList_map]

/-- What is left of a filter has nothing to do with its references. -/
theorem collapse_map {β : Type} (g : α → β) (f : Filter α) :
    (f.map g).collapse = f.collapse.map (map g) := by
  induction f with
  | leaf p => rfl
  | group c parts ih =>
    rw [map_group, collapse_group, collapse_group, collapseAll_map_of g ih, join?_map]

theorem collapseAll_map {β : Type} (g : α → β) (fs : List (Filter α)) :
    collapseAll (fs.map (map g)) = (collapseAll fs).map (map g) :=
  collapseAll_map_of g fun f _ => collapse_map g f

/-- **Collapsing loses no comparison.** -/
theorem predicates_collapse (f : Filter α) :
    f.collapse.toList.flatMap predicates = f.predicates := by
  induction f with
  | leaf p => rfl
  | group c parts ih =>
    rw [collapse_group, predicates_join?, predicates_group, collapseAll_eq, List.flatMap_assoc]
    exact List.flatMap_congr ih

theorem predicates_collapseAll (fs : List (Filter α)) :
    (collapseAll fs).flatMap predicates = fs.flatMap predicates := by
  rw [collapseAll_eq, List.flatMap_assoc]
  exact List.flatMap_congr fun f _ => predicates_collapse f

/-- A filter vanishes just if it has no comparison. -/
theorem collapse_eq_none_iff (f : Filter α) : f.collapse = none ↔ f.predicates = [] := by
  constructor
  · intro h
    rw [← predicates_collapse, h]
    rfl
  · induction f with
    | leaf p => intro h; cases h
    | group c parts ih =>
      intro h
      rw [predicates_group, List.flatMap_eq_nil_iff] at h
      rw [collapse_group, join?_eq_none_iff, collapseAll_eq, List.flatMap_eq_nil_iff]
      intro part hpart
      rw [ih part hpart (h part hpart)]
      rfl

theorem references_collapseAll (fs : List (Filter α)) :
    (collapseAll fs).flatMap references = fs.flatMap references := by
  rw [flatMap_references, predicates_collapseAll, flatMap_references]

end RuleFilter.Filter
