import RuleFilter.Filter.Basic
import Mathlib.Data.List.Basic

/-! # References of filters

What a filter refers to can be replaced without touching its comparisons (`Filter.map`). The
comparisons of a filter that was joined from parts are those of the parts, in their order
(`predicates_join?`, `predicates_combine`), and so are its references. -/

namespace RuleFilter

variable {α β : Type}

namespace Operand

@[simp]
theorem toList_map (g : α → β) : ∀ o : Operand α, (o.map g).toList = o.toList.map g
  | .none | .blank | .single _ | .range _ _ => rfl
  | .list _ => rfl

theorem eq_of_map_eq (g : α → β) {o o' : Operand α} (hmap : o.map g = o'.map g)
    (hlist : o.toList = o'.toList) : o = o' := by
  cases o <;> cases o' <;> simp_all [Operand.map, toList]

end Operand

theorem Predicate.eq_of_map_eq (g : α → β) {p p' : Predicate α} (hmap : p.map g = p'.map g)
    (hlist : p.operand.toList = p'.operand.toList) : p = p' := by
  obtain ⟨hfield, hcomparison, hoperand⟩ := Predicate.mk.inj hmap
  have := Operand.eq_of_map_eq g hoperand hlist
  cases p
  cases p'
  simp_all

namespace Filter

/-- A property of every filter, if a group has it as soon as its parts do. -/
@[elab_as_elim, induction_eliminator]
theorem induction {motive : Filter α → Prop} (leaf : ∀ p, motive (.leaf p))
    (group : ∀ c parts, (∀ part ∈ parts, motive part) → motive (.group c parts)) :
    ∀ f, motive f
  | .leaf p => leaf p
  | .group c parts => group c parts fun part _ => induction leaf group part

/-! ### Other references -/

mutual

/-- The same filter with other references. -/
def map (g : α → β) : Filter α → Filter β
  | .leaf p => .leaf (p.map g)
  | .group c parts => .group c (mapAll g parts)

/-- The same filters with other references. -/
def mapAll (g : α → β) : List (Filter α) → List (Filter β)
  | [] => []
  | part :: rest => part.map g :: mapAll g rest

end

@[simp]
theorem mapAll_eq (g : α → β) : ∀ parts : List (Filter α), mapAll g parts = parts.map (map g)
  | [] => rfl
  | part :: rest => by rw [mapAll, mapAll_eq g rest, List.map_cons]

theorem map_leaf (g : α → β) (p : Predicate α) : (leaf p).map g = leaf (p.map g) := rfl

theorem map_group (g : α → β) (c : Connective) (parts : List (Filter α)) :
    (group c parts).map g = group c (parts.map (map g)) := by
  rw [map, mapAll_eq]

theorem map_map {γ : Type} (g : α → β) (h : β → γ) (f : Filter α) :
    (f.map g).map h = f.map (h ∘ g) := by
  induction f with
  | leaf p =>
    obtain ⟨field, comparison, operand⟩ := p
    cases operand <;> simp [map_leaf, Predicate.map, Operand.map]
  | group c parts ih =>
    rw [map_group, map_group, map_group, List.map_map]
    exact congrArg (group c) (List.map_congr_left ih)

/-! ### Comparisons -/

@[simp]
theorem predicatesOfAll_eq : ∀ parts : List (Filter α),
    predicatesOfAll parts = parts.flatMap predicates
  | [] => rfl
  | part :: rest => by rw [predicatesOfAll, predicatesOfAll_eq rest, List.flatMap_cons]

@[simp]
theorem predicates_leaf (p : Predicate α) : (leaf p).predicates = [p] := rfl

@[simp]
theorem predicates_group (c : Connective) (parts : List (Filter α)) :
    (group c parts).predicates = parts.flatMap predicates := by
  rw [predicates, predicatesOfAll_eq]

theorem predicates_map (g : α → β) (f : Filter α) :
    (f.map g).predicates = f.predicates.map (Predicate.map g) := by
  induction f with
  | leaf p => rfl
  | group c parts ih =>
    rw [map_group, predicates_group, predicates_group, List.flatMap_map, List.map_flatMap]
    exact List.flatMap_congr ih

theorem flatMap_predicates_map (g : α → β) (fs : List (Filter α)) :
    (fs.map (map g)).flatMap predicates = (fs.flatMap predicates).map (Predicate.map g) := by
  rw [List.flatMap_map, List.map_flatMap]
  exact List.flatMap_congr fun f _ => predicates_map g f

@[simp]
theorem predicates_join? (c : Connective) : ∀ parts : List (Filter α),
    (join? c parts).toList.flatMap predicates = parts.flatMap predicates
  | [] | [_] => rfl
  | a :: b :: rest => by simp [join?]

@[simp]
theorem predicates_combine (f : Filter α) (c : Connective) (other : Filter α) :
    (f.combine c other).predicates = f.predicates ++ other.predicates := by
  cases f with
  | leaf p => simp [combine]
  | group inner parts =>
    simp only [combine]
    split_ifs <;> simp

/-! ### References -/

/-- References of several filters are those of their comparisons. -/
theorem flatMap_references (fs : List (Filter α)) :
    fs.flatMap references = (fs.flatMap predicates).flatMap fun p => p.operand.toList := by
  rw [List.flatMap_assoc]
  rfl

@[simp]
theorem references_leaf (p : Predicate α) : (leaf p).references = p.operand.toList := by
  simp [references]

@[simp]
theorem references_group (c : Connective) (parts : List (Filter α)) :
    (group c parts).references = parts.flatMap references := by
  rw [references, predicates_group, flatMap_references]

@[simp]
theorem references_map (g : α → β) (f : Filter α) :
    (f.map g).references = f.references.map g := by
  unfold references
  rw [predicates_map, List.flatMap_map, List.map_flatMap]
  exact List.flatMap_congr fun p _ => Operand.toList_map g p.operand

@[simp]
theorem references_join? (c : Connective) (parts : List (Filter α)) :
    (join? c parts).toList.flatMap references = parts.flatMap references := by
  rw [flatMap_references, predicates_join?, flatMap_references]

@[simp]
theorem references_combine (f : Filter α) (c : Connective) (other : Filter α) :
    (f.combine c other).references = f.references ++ other.references := by
  unfold references
  rw [predicates_combine, List.flatMap_append]

/-! ### What determines a filter -/

mutual

/-- A filter is what it looks like with other references, and its own references. -/
theorem eq_of_map_eq (g : α → β) : ∀ f f' : Filter α,
    f.map g = f'.map g → f.references = f'.references → f = f'
  | .leaf p, .leaf p', hmap, hreferences => by
    rw [map_leaf, map_leaf] at hmap
    rw [references_leaf, references_leaf] at hreferences
    rw [Predicate.eq_of_map_eq g (Filter.leaf.inj hmap) hreferences]
  | .leaf _, .group _ _, hmap, _ => by cases hmap
  | .group _ _, .leaf _, hmap, _ => by cases hmap
  | .group c parts, .group c' parts', hmap, hreferences => by
    rw [map_group, map_group] at hmap
    rw [references_group, references_group] at hreferences
    obtain ⟨hc, hparts⟩ := Filter.group.inj hmap
    rw [hc, eq_of_map_map_eq g parts parts' hparts hreferences]

theorem eq_of_map_map_eq (g : α → β) : ∀ fs fs' : List (Filter α),
    fs.map (map g) = fs'.map (map g) → fs.flatMap references = fs'.flatMap references → fs = fs'
  | [], [], _, _ => rfl
  | [], _ :: _, hmap, _ => by cases hmap
  | _ :: _, [], hmap, _ => by cases hmap
  | f :: fs, f' :: fs', hmap, hreferences => by
    obtain ⟨hf, hfs⟩ := List.cons.inj hmap
    have hlength : f.references.length = f'.references.length := by
      rw [← List.length_map g, ← references_map, hf, references_map, List.length_map]
    rw [List.flatMap_cons, List.flatMap_cons] at hreferences
    obtain ⟨hr, hrs⟩ := List.append_inj hreferences hlength
    rw [eq_of_map_eq g f f' hf hr, eq_of_map_map_eq g fs fs' hfs hrs]

end

/-! ### Joining -/

theorem join?_map (g : α → β) (c : Connective) : ∀ parts : List (Filter α),
    join? c (parts.map (map g)) = (join? c parts).map (map g)
  | [] | [_] => rfl
  | a :: b :: rest => by
    simp only [List.map_cons, join?, Option.map_some, map_group]

theorem join?_eq_none_iff (c : Connective) : ∀ parts : List (Filter α),
    join? c parts = none ↔ parts = []
  | [] | [_] => by simp [join?]
  | a :: b :: rest => by simp [join?]

end Filter

end RuleFilter
