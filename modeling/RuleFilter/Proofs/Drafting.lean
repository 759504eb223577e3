import RuleFilter.Compilation
import RuleFilter.Proofs.Collapse
import RuleFilter.Proofs.Labelling

/-! # Drafting plans

A draft only ever grows by labelled filters: each brings its names as a part and its labels as
bindings (`Draft.extend`). So at every point of a draft the references of the parts are the names of
the bindings, in their order. **Drafting a plan is collapsing it and labelling what is left**
(`placeAll_eq`). -/

namespace RuleFilter.Draft

/-! ### Growing drafts -/

/-- The draft with labelled filters added behind. -/
def extend (d : Draft) (c : Connective) (fs : List (Filter Labelled)) : Draft :=
  ⟨d.parts ++ fs.map fun f => (c, f.map Prod.fst), d.bindings ++ fs.flatMap Filter.references⟩

@[simp]
theorem extend_nil (d : Draft) (c : Connective) : d.extend c [] = d := by
  simp [extend]

theorem extend_extend (d : Draft) (c : Connective) (fs gs : List (Filter Labelled)) :
    (d.extend c fs).extend c gs = d.extend c (fs ++ gs) := by
  simp [extend]

theorem bindAll_eq : ∀ (bindings : Bindings) (d : Draft),
    Sink.bindAll d bindings = { d with bindings := d.bindings ++ bindings }
  | [], d => by simp [Sink.bindAll]
  | b :: rest, d => by
    have hrest := bindAll_eq rest (Sink.bind d b.1 b.2)
    unfold Sink.bindAll at hrest ⊢
    rw [List.foldl_cons, hrest]
    simp [Sink.bind]

theorem take_eq (d : Draft) (c : Connective) (p : Predicate Labelled) :
    Sink.take d c p = d.extend c [.leaf p] := by
  unfold Sink.take
  rw [bindAll_eq]
  simp [extend, Sink.add, Filter.map_leaf]

/-- A group drafted from nothing is attached as one filter, joined. -/
theorem attach_extend (d : Draft) (condition c : Connective) (fs : List (Filter Labelled)) :
    (empty.extend condition fs).attach d condition c =
      d.extend c (Filter.join? condition fs).toList := by
  have hparts : (empty.extend condition fs).parts.map Prod.snd = fs.map (Filter.map Prod.fst) := by
    simp [empty, extend, Function.comp_def]
  have hbindings : (empty.extend condition fs).bindings = fs.flatMap Filter.references := by
    simp [empty, extend]
  have hjoin := Filter.references_join? condition fs
  unfold attach
  rw [hparts, Filter.join?_map, hbindings]
  cases h : Filter.join? condition fs with
  | none => simp
  | some f =>
    rw [h] at hjoin
    simp only [Option.map_some, bindAll_eq]
    simp only [extend, Sink.add, ← hjoin, Option.toList_some, List.map_cons, List.map_nil]

/-! ### Plans -/

variable (taken : List String)

theorem place_leaf (c : Connective) (p : Predicate Value) (d : Draft) (supply : NameSupply) :
    place taken c (.leaf p) (d, supply) =
      (d.extend c [.leaf (p.label taken supply).1], (p.label taken supply).2) := by
  rw [← take_eq]
  rfl

theorem place_group (c condition : Connective) (parts : List Plan) (d : Draft)
    (supply : NameSupply) :
    place taken c (.group condition parts) (d, supply) =
      ((placeAll taken condition parts (empty, supply)).1.attach d condition c,
        (placeAll taken condition parts (empty, supply)).2) := rfl

mutual

theorem place_eq : ∀ (c : Connective) (p : Plan) (d : Draft) (supply : NameSupply),
    place taken c p (d, supply) =
      (d.extend c (Filter.labelAll taken p.collapse.toList supply).1,
        (Filter.labelAll taken p.collapse.toList supply).2)
  | c, .leaf p, d, supply => place_leaf taken c p d supply
  | c, .group condition parts, d, supply => by
    rw [place_group, placeAll_eq condition parts, attach_extend, Filter.collapse_group,
      Filter.labelAll_join?]

/-- **Drafting is labelling the collapsed plans.** -/
theorem placeAll_eq : ∀ (c : Connective) (parts : List Plan) (d : Draft) (supply : NameSupply),
    placeAll taken c parts (d, supply) =
      (d.extend c (Filter.labelAll taken (Filter.collapseAll parts) supply).1,
        (Filter.labelAll taken (Filter.collapseAll parts) supply).2)
  | c, [], d, supply => by simp [placeAll, Filter.collapseAll, Filter.labelAll]
  | c, part :: rest, d, supply => by
    rw [placeAll, place_eq c part, placeAll_eq c rest, extend_extend, Filter.collapseAll,
      Filter.labelAll_append]

end

end RuleFilter.Draft
