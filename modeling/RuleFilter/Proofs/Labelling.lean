import RuleFilter.Proofs.Names
import RuleFilter.Proofs.References

/-! # Labelled filters

A filter over values is labelled by drawing a name for each of its references, from left to right.
The labels are those of one row of draws (`label_references`), and without the names the filter is
the old one (`map_snd_label`). So names and values never come apart, wherever they stand. -/

namespace RuleFilter

variable (taken : List String)

/-! ### Operands and comparisons -/

theorem Operand.label_toList (supply : NameSupply) : ∀ o : Operand Value,
    supply.label taken o.toList = ((o.label taken supply).1.toList, (o.label taken supply).2)
  | .none | .blank | .single _ | .list _ | .range _ _ => rfl

theorem Operand.map_snd_label (supply : NameSupply) : ∀ o : Operand Value,
    (o.label taken supply).1.map Prod.snd = o
  | .none | .blank | .single _ | .range _ _ => rfl
  | .list values => congrArg Operand.list (NameSupply.map_snd_label taken values supply)

theorem Predicate.map_snd_label (supply : NameSupply) (p : Predicate Value) :
    (p.label taken supply).1.map Prod.snd = p := by
  unfold Predicate.label Predicate.map
  rw [Operand.map_snd_label]

namespace Filter

/-! ### Filters -/

mutual

/-- The filter with a name for every value. -/
def label : Filter Value → NameSupply → Filter Labelled × NameSupply
  | .leaf p, supply =>
    let (labelled, supply) := p.label taken supply
    (.leaf labelled, supply)
  | .group c parts, supply =>
    let (labelled, supply) := labelAll parts supply
    (.group c labelled, supply)

/-- The filters with a name for every value. -/
def labelAll : List (Filter Value) → NameSupply → List (Filter Labelled) × NameSupply
  | [], supply => ([], supply)
  | part :: rest, supply =>
    let (first, supply) := part.label supply
    let (others, supply) := labelAll rest supply
    (first :: others, supply)

end

theorem label_leaf (p : Predicate Value) (supply : NameSupply) :
    (leaf p).label taken supply = (leaf (p.label taken supply).1, (p.label taken supply).2) := rfl

theorem label_group (c : Connective) (parts : List (Filter Value)) (supply : NameSupply) :
    (group c parts).label taken supply =
      (group c (labelAll taken parts supply).1, (labelAll taken parts supply).2) := rfl

theorem labelAll_cons (part : Filter Value) (rest : List (Filter Value)) (supply : NameSupply) :
    labelAll taken (part :: rest) supply =
      ((part.label taken supply).1 :: (labelAll taken rest (part.label taken supply).2).1,
        (labelAll taken rest (part.label taken supply).2).2) := rfl

theorem labelAll_append (ys : List (Filter Value)) : ∀ (xs : List (Filter Value))
    (supply : NameSupply), labelAll taken (xs ++ ys) supply =
      ((labelAll taken xs supply).1 ++ (labelAll taken ys (labelAll taken xs supply).2).1,
        (labelAll taken ys (labelAll taken xs supply).2).2)
  | [], supply => rfl
  | x :: xs, supply => by
    rw [List.cons_append, labelAll_cons, labelAll_cons, labelAll_append ys xs]
    rfl

mutual

/-- **The labels of a filter are one row of draws.** -/
theorem label_references : ∀ (f : Filter Value) (supply : NameSupply),
    supply.label taken f.references =
      ((f.label taken supply).1.references, (f.label taken supply).2)
  | .leaf p, supply => by
    rw [label_leaf, references_leaf, references_leaf]
    exact Operand.label_toList taken supply p.operand
  | .group c parts, supply => by
    rw [label_group, references_group, references_group]
    exact labelAll_references parts supply

theorem labelAll_references : ∀ (fs : List (Filter Value)) (supply : NameSupply),
    supply.label taken (fs.flatMap references) =
      ((labelAll taken fs supply).1.flatMap references, (labelAll taken fs supply).2)
  | [], supply => rfl
  | f :: rest, supply => by
    rw [List.flatMap_cons, NameSupply.label_append, label_references f, labelAll_cons,
      labelAll_references rest, List.flatMap_cons]

end

mutual

theorem map_snd_label : ∀ (f : Filter Value) (supply : NameSupply),
    (f.label taken supply).1.map Prod.snd = f
  | .leaf p, supply => by
    rw [label_leaf, map_leaf, Predicate.map_snd_label]
  | .group c parts, supply => by
    rw [label_group, map_group, map_snd_labelAll parts]

theorem map_snd_labelAll : ∀ (fs : List (Filter Value)) (supply : NameSupply),
    (labelAll taken fs supply).1.map (map Prod.snd) = fs
  | [], supply => rfl
  | f :: rest, supply => by
    rw [labelAll_cons, List.map_cons, map_snd_label f, map_snd_labelAll rest]

end

/-- Joining draws no names. -/
theorem labelAll_join? (c : Connective) (supply : NameSupply) : ∀ fs : List (Filter Value),
    labelAll taken (join? c fs).toList supply =
      ((join? c (labelAll taken fs supply).1).toList, (labelAll taken fs supply).2)
  | [] | [_] | _ :: _ :: _ => rfl

end Filter

end RuleFilter
