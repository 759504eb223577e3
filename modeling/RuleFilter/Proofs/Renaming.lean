import RuleFilter.Proofs.Idle
import RuleFilter.Proofs.Outline

/-! # Other names

The names of placeholders come from the stem of the settings and the names that a sink has in use,
and nothing else does: a payload has the same plan whatever the stem is (`plan_withStem`). Two
compilations of one plan draw as many names each, all of them distinct, so some renaming takes the
one row of names to the other (`exists_map_eq`), and it takes everything that is written in the one
compilation to what is written in the other (`filtersOf_renamed`, `bindingsOf_renamed`). -/

namespace RuleFilter

/-! ### Renaming -/

/-- Distinct names can be renamed to any others, one by one. -/
theorem exists_map_eq : ∀ {xs ys : List String}, xs.Nodup → xs.length = ys.length →
    ∃ ρ : String → String, xs.map ρ = ys
  | [], [], _, _ => ⟨id, rfl⟩
  | x :: xs, y :: ys, hnodup, hlength => by
    obtain ⟨hx, hxs⟩ := List.nodup_cons.mp hnodup
    obtain ⟨ρ, hρ⟩ := exists_map_eq hxs (Nat.succ.inj hlength)
    have hrest : xs.map (Function.update ρ x y) = xs.map ρ := by
      refine List.map_congr_left fun n hn => Function.update_of_ne ?_ y ρ
      rintro rfl
      exact hx hn
    refine ⟨Function.update ρ x y, ?_⟩
    rw [List.map_cons, Function.update_self, hrest, hρ]

namespace Call

/-- The same call with other names. -/
def rename (ρ : String → String) : Call → Call
  | .add c f => .add c (f.map ρ)
  | .bind name value => .bind (ρ name) value

theorem rename_delivery (ρ : String → String) (c : Connective) (filters : List (Filter String))
    (bindings : Bindings) :
    (delivery c filters bindings).map (rename ρ) =
      delivery c (filters.map (Filter.map ρ)) (bindings.map (Prod.map ρ id)) := by
  unfold delivery Bindings.calls
  simp [Function.comp_def, rename]

end Call

namespace Compiler

/-! ### Plans without names -/

/-- The same with another stem for the names of placeholders. -/
def withStem (compiler : Compiler) (stem : String) : Compiler :=
  { compiler with settings := { compiler.settings with placeholderStem := stem } }

variable (compiler : Compiler) (stem : String)

theorem planLeaf_withStem (members : Option Members) :
    (compiler.withStem stem).planLeaf members = compiler.planLeaf members := rfl

theorem connectiveOf_withStem (condition : Option String) :
    (compiler.withStem stem).connectiveOf condition = compiler.connectiveOf condition := rfl

mutual

/-- **A plan has nothing to do with the stem of names.** -/
theorem plan_withStem : ∀ node : RuleNode,
    (compiler.withStem stem).plan node = compiler.plan node
  | .leaf members => planLeaf_withStem compiler stem members
  | .group condition rules => by
    rw [plan, plan, planAll_withStem rules, connectiveOf_withStem]

theorem planAll_withStem : ∀ rules : List RuleNode,
    (compiler.withStem stem).planAll rules = compiler.planAll rules
  | [] => rfl
  | node :: rest => by
    rw [planAll, planAll, plan_withStem node, planAll_withStem rest]

end

/-! ### One plan under two rows of names -/

section Renamed

variable {compiler compiler' : Compiler} {taken taken' : List String} {parts : List Plan}
  {ρ : String → String}

/-- Two compilations of a plan draw as many names. -/
theorem length_names_bindingsOf (compiler : Compiler) (taken : List String) (parts : List Plan) :
    (compiler.bindingsOf taken parts).names.length =
      (parts.flatMap Filter.references).length := by
  rw [← compiler.values_bindingsOf taken parts]
  unfold Bindings.names
  rw [List.length_map, List.length_map]

/-- **Renaming the names renames the filters.** -/
theorem filtersOf_renamed (h : (compiler'.bindingsOf taken' parts).names =
      (compiler.bindingsOf taken parts).names.map ρ) :
    compiler'.filtersOf taken' parts = (compiler.filtersOf taken parts).map (Filter.map ρ) := by
  -- without their names both are the collapsed plan, and the names are those of the bindings
  refine Filter.eq_of_map_map_eq (fun _ => ()) _ _ ?_ ?_
  · have houtline : ((compiler.filtersOf taken parts).map (Filter.map ρ)).map Filter.outline =
        (compiler.filtersOf taken parts).map Filter.outline := by
      rw [List.map_map]
      exact List.map_congr_left fun f _ => Filter.map_map ρ _ f
    have hsame : (compiler'.filtersOf taken' parts).map Filter.outline =
        (compiler.filtersOf taken parts).map Filter.outline := by
      rw [outline_filtersOf, outline_filtersOf]
    exact hsame.trans houtline.symm
  · rw [← names_bindingsOf, h, names_bindingsOf, List.flatMap_map, List.map_flatMap]
    exact List.flatMap_congr fun f _ => (Filter.references_map ρ f).symm

/-- **Renaming the names renames the bindings**, and leaves the values. -/
theorem bindingsOf_renamed (h : (compiler'.bindingsOf taken' parts).names =
      (compiler.bindingsOf taken parts).names.map ρ) :
    compiler'.bindingsOf taken' parts =
      (compiler.bindingsOf taken parts).map (Prod.map ρ id) := by
  have hnames : (compiler'.bindingsOf taken' parts).map Prod.fst =
      (compiler.bindingsOf taken parts).map fun b => ρ b.1 := by
    unfold Bindings.names at h
    rw [h, List.map_map]
    rfl
  have hvalues : (compiler'.bindingsOf taken' parts).map Prod.snd =
      (compiler.bindingsOf taken parts).map fun b => b.2 := by
    rw [values_bindingsOf, ← compiler.values_bindingsOf taken parts]
  rw [List.zip_of_prod hnames hvalues, List.zip_map']
  rfl

/-- What one plan hands over under two rows of names differs by a renaming. -/
theorem exists_renaming (compiler compiler' : Compiler) (taken taken' : List String)
    (c : Connective) (parts : List Plan) : ∃ ρ : String → String,
      (compiler'.bindingsOf taken' parts).names =
          (compiler.bindingsOf taken parts).names.map ρ ∧
        Call.delivery c (compiler'.filtersOf taken' parts) (compiler'.bindingsOf taken' parts) =
          (Call.delivery c (compiler.filtersOf taken parts)
            (compiler.bindingsOf taken parts)).map (Call.rename ρ) := by
  have hlength : (compiler.bindingsOf taken parts).names.length =
      (compiler'.bindingsOf taken' parts).names.length := by
    rw [length_names_bindingsOf, length_names_bindingsOf]
  obtain ⟨ρ, hρ⟩ := exists_map_eq (compiler.nodup_bindingsOf taken parts) hlength
  refine ⟨ρ, hρ.symm, ?_⟩
  rw [Call.rename_delivery, filtersOf_renamed hρ.symm, bindingsOf_renamed hρ.symm]

end Renamed

/-! ### Payloads -/

variable {σ τ : Type} [Sink σ] [Sink τ]

/-- The calls of two compilations are the same but for the names, which correspond one to one: each
of the one is renamed to the one that is bound at its place in the other. -/
structure Renamed (ρ : String → String) (called called' : List Call) : Prop where
  calls : called' = called.map (Call.rename ρ)
  names : Call.names called' = (Call.names called).map ρ
  distinct : (Call.names called).Nodup
  distinct' : (Call.names called').Nodup

theorem calls_renamed (compiler : Compiler) (stem : String) (taken taken' : List String)
    (node : RuleNode) :
    (∃ e, compiler.calls taken node = .error e ∧
      (compiler.withStem stem).calls taken' node = .error e) ∨
    ∃ ρ called called', compiler.calls taken node = .ok called ∧
      (compiler.withStem stem).calls taken' node = .ok called' ∧ Renamed ρ called called' := by
  cases node with
  | leaf members =>
    exact Or.inr ⟨id, [], [], rfl, rfl, rfl, rfl, List.nodup_nil, List.nodup_nil⟩
  | group condition rules =>
    rw [calls_group, calls_group, connectiveOf_withStem, planAll_withStem]
    cases compiler.connectiveOf condition with
    | error e => exact Or.inl ⟨e, rfl, rfl⟩
    | ok c =>
      cases (compiler.planAll rules).result with
      | error e => exact Or.inl ⟨e, rfl, rfl⟩
      | ok parts =>
        obtain ⟨ρ, hnames, hcalls⟩ :=
          exists_renaming compiler (compiler.withStem stem) taken taken' c parts
        refine Or.inr ⟨ρ, _, _, rfl, rfl, hcalls, ?_, ?_, ?_⟩
        · rw [Call.names_delivery, Call.names_delivery, hnames]
        · rw [Call.names_delivery]
          exact compiler.nodup_bindingsOf taken parts
        · rw [Call.names_delivery]
          exact (compiler.withStem stem).nodup_bindingsOf taken' parts

/-- **A compilation hangs on names up to renaming only.** With any other stem of names, into any
other sink whatever names it has in use, a payload is refused for the same error, or it compiles in
both cases and the calls are the same but for the names. -/
theorem compileJson_renamed (compiler : Compiler) (stem : String) (payload : Json) (sink : σ)
    (sink' : τ) :
    (∃ e, (compiler.compileJson payload sink).result = .error e ∧
      ((compiler.withStem stem).compileJson payload sink').result = .error e) ∨
    ∃ ρ called called', compiler.Makes payload sink called ∧
      (compiler.withStem stem).Makes payload sink' called' ∧ Renamed ρ called called' := by
  have hresult := compiler.compileNode_result (.ofJson payload) sink
  have hresult' := (compiler.withStem stem).compileNode_result (.ofJson payload) sink'
  rcases compiler.calls_renamed stem (Sink.boundNames sink) (Sink.boundNames sink')
    (.ofJson payload) with ⟨e, he, he'⟩ | ⟨ρ, called, called', hcalled, hcalled', hrenamed⟩
  · rw [he] at hresult
    rw [he'] at hresult'
    exact Or.inl ⟨e, hresult, hresult'⟩
  · exact Or.inr ⟨ρ, called, called', makes_iff.mpr hcalled, makes_iff.mpr hcalled', hrenamed⟩

end Compiler

end RuleFilter
