import RuleFilter.Proofs.Drafting
import RuleFilter.Proofs.Planning

/-! # What a sink is handed

A compilation touches its sink by a list of calls only, and the list hangs on nothing but the
payload and the names that the sink has bound (`compileNode_result`). The calls of a rule tree are
those of one growing draft: first its filters, then its bindings (`Call.delivery`). A recorder ends
with just this list. -/

namespace RuleFilter

/-! ### Calls -/

namespace Sink

variable {σ : Type} [Sink σ]

/-- Takes what a call hands over. -/
def receive (sink : σ) : Call → σ
  | .add c f => add sink c f
  | .bind name value => bind sink name value

/-- Takes what calls hand over, one after the other. -/
def receiveAll (sink : σ) (calls : List Call) : σ :=
  calls.foldl receive sink

theorem receiveAll_append (sink : σ) (xs ys : List Call) :
    receiveAll sink (xs ++ ys) = receiveAll (receiveAll sink xs) ys :=
  List.foldl_append

end Sink

/-- The names that have a value, in the order of their first binding. -/
def Bindings.names (bindings : Bindings) : List String :=
  bindings.map Prod.fst

/-- The bindings as calls. -/
def Bindings.calls (bindings : Bindings) : List Call :=
  bindings.map fun b => .bind b.1 b.2

/-- The calls that hand over filters and then bindings. -/
def Call.delivery (c : Connective) (filters : List (Filter String)) (bindings : Bindings) :
    List Call :=
  filters.map (.add c) ++ bindings.calls

/-- The names that calls bind, in their order. -/
def Call.names (calls : List Call) : List String :=
  calls.filterMap boundName?

theorem Call.names_delivery (c : Connective) (filters : List (Filter String))
    (bindings : Bindings) : names (delivery c filters bindings) = bindings.names := by
  unfold names delivery Bindings.calls Bindings.names
  rw [List.filterMap_append, List.filterMap_map, List.filterMap_map]
  simp [Function.comp_def, boundName?]

theorem Sink.bindAll_eq_receiveAll {σ : Type} [Sink σ] (sink : σ) (bindings : Bindings) :
    Sink.bindAll sink bindings = Sink.receiveAll sink bindings.calls := by
  unfold Sink.receiveAll Bindings.calls
  rw [List.foldl_map]
  rfl

theorem Draft.commit_eq {σ : Type} [Sink σ] (sink : σ) (c : Connective)
    (fs : List (Filter Labelled)) :
    (Draft.empty.extend c fs).commit sink =
      Sink.receiveAll sink
        (Call.delivery c (fs.map (Filter.map Prod.fst)) (fs.flatMap Filter.references)) := by
  unfold Draft.commit Call.delivery
  rw [Sink.bindAll_eq_receiveAll, Sink.receiveAll_append]
  simp only [Draft.extend, Draft.empty, List.nil_append, Sink.receiveAll, List.foldl_map]
  rfl

theorem Recorder.receiveAll_eq : ∀ (calls : List Call) (r : Recorder),
    Sink.receiveAll r calls = ⟨r.taken, r.calls ++ calls⟩
  | [], r => by simp [Sink.receiveAll]
  | call :: rest, r => by
    have hcall : Sink.receive r call = ⟨r.taken, r.calls ++ [call]⟩ := by cases call <;> rfl
    have hrest := receiveAll_eq rest ⟨r.taken, r.calls ++ [call]⟩
    unfold Sink.receiveAll at hrest ⊢
    rw [List.foldl_cons, hcall, hrest, List.append_assoc, List.singleton_append]

/-! ### The calls of a compilation -/

namespace Compiler

/-- The filters of a plan with their labels, where some names are taken. -/
def labelled (compiler : Compiler) (taken : List String) (parts : List Plan) :
    List (Filter Labelled) :=
  (Filter.labelAll taken (Filter.collapseAll parts) (.ofStem compiler.settings.placeholderStem)).1

/-- The filters of a plan, with names. -/
def filtersOf (compiler : Compiler) (taken : List String) (parts : List Plan) :
    List (Filter String) :=
  (compiler.labelled taken parts).map (Filter.map Prod.fst)

/-- The bindings of a plan. -/
def bindingsOf (compiler : Compiler) (taken : List String) (parts : List Plan) : Bindings :=
  (compiler.labelled taken parts).flatMap Filter.references

/-- What a rule tree hands to a sink that has some names bound. -/
def calls (compiler : Compiler) (taken : List String) : RuleNode → Except CompileError (List Call)
  | .leaf _ => .ok []
  | .group condition rules => do
    let c ← compiler.connectiveOf condition
    let parts ← (compiler.planAll rules).result
    return Call.delivery c (compiler.filtersOf taken parts) (compiler.bindingsOf taken parts)

variable {σ : Type} [Sink σ] (compiler : Compiler)

theorem draft_eq (sink : σ) (c : Connective) (parts : List Plan) :
    compiler.draft sink c parts =
      Draft.empty.extend c (compiler.labelled (Sink.boundNames sink) parts) := by
  unfold draft labelled
  rw [Draft.placeAll_eq]

/-- **A compilation hands its sink a list of calls**, and the sink has a say in it only by the names
that it has bound. -/
theorem compileNode_result (node : RuleNode) (sink : σ) :
    (compiler.compileNode node sink).result =
      (compiler.calls (Sink.boundNames sink) node).map (Sink.receiveAll sink) := by
  cases node with
  | leaf members => rfl
  | group condition rules =>
    unfold compileNode calls
    simp only [Traced.result_bind, Traced.result_lift, Traced.result_tell, Traced.result_pure,
      draft_eq, Draft.commit_eq]
    cases compiler.connectiveOf condition with
    | error e => rfl
    | ok c =>
      cases (compiler.planAll rules).result with
      | error e => rfl
      | ok parts => rfl

theorem calls_group (taken : List String) (condition : Option String) (rules : List RuleNode) :
    compiler.calls taken (.group condition rules) =
      compiler.connectiveOf condition >>= fun c => (compiler.planAll rules).result >>= fun parts =>
        .ok (Call.delivery c (compiler.filtersOf taken parts) (compiler.bindingsOf taken parts)) :=
  rfl

theorem calls_group_eq_ok {taken : List String} {condition : Option String}
    {rules : List RuleNode} {called : List Call}
    (h : compiler.calls taken (.group condition rules) = .ok called) : ∃ c parts,
      compiler.connectiveOf condition = .ok c ∧ (compiler.planAll rules).result = .ok parts ∧
      called =
        Call.delivery c (compiler.filtersOf taken parts) (compiler.bindingsOf taken parts) := by
  obtain ⟨c, hc, h⟩ := except_bind_eq_ok.mp h
  obtain ⟨parts, hp, h⟩ := except_bind_eq_ok.mp h
  cases h
  exact ⟨c, parts, hc, hp, rfl⟩

/-! ### Names and values -/

variable (taken : List String) (parts : List Plan)

theorem map_snd_labelled :
    (compiler.labelled taken parts).map (Filter.map Prod.snd) = Filter.collapseAll parts :=
  Filter.map_snd_labelAll taken _ _

theorem bindingsOf_eq :
    compiler.bindingsOf taken parts =
      (NameSupply.label taken (parts.flatMap Filter.references)
        (.ofStem compiler.settings.placeholderStem)).1 := by
  unfold bindingsOf
  rw [← Filter.references_collapseAll parts, Filter.labelAll_references]
  rfl

/-- **Placeholders and bindings never come apart.** -/
theorem names_bindingsOf :
    (compiler.bindingsOf taken parts).names =
      (compiler.filtersOf taken parts).flatMap Filter.references := by
  unfold Bindings.names bindingsOf filtersOf
  rw [List.map_flatMap, List.flatMap_map]
  exact List.flatMap_congr fun f _ => (Filter.references_map Prod.fst f).symm

theorem values_bindingsOf :
    (compiler.bindingsOf taken parts).map Prod.snd = parts.flatMap Filter.references := by
  rw [bindingsOf_eq, NameSupply.map_snd_label]

/-- The names are free, each with a greater number than the one before. -/
theorem bindingsOf_numbered : ∃ numbers : List Nat, numbers.Pairwise (· < ·) ∧
    (compiler.bindingsOf taken parts).names =
      numbers.map (NameSupply.name compiler.settings.placeholderStem) ∧
    ∀ n ∈ numbers, NameSupply.name compiler.settings.placeholderStem n ∉ taken := by
  obtain ⟨numbers, hd, hnames⟩ := NameSupply.label_drawn taken compiler.settings.placeholderStem
    (parts.flatMap Filter.references) 0
  exact ⟨numbers, hd.increasing, by rw [bindingsOf_eq]; exact hnames, hd.free⟩

theorem nodup_bindingsOf : (compiler.bindingsOf taken parts).names.Nodup := by
  obtain ⟨numbers, hincreasing, hnames, -⟩ := compiler.bindingsOf_numbered taken parts
  rw [hnames]
  exact List.Nodup.map (fun _ _ => NameSupply.name_injective)
    (hincreasing.imp fun h => Nat.ne_of_lt h)

theorem bindingsOf_free : ∀ name ∈ (compiler.bindingsOf taken parts).names, name ∉ taken := by
  obtain ⟨numbers, -, hnames, hfree⟩ := compiler.bindingsOf_numbered taken parts
  rw [hnames]
  intro name hname
  obtain ⟨n, hn, rfl⟩ := List.mem_map.mp hname
  exact hfree n hn

end Compiler

/-! ### A payload -/

/-- The standard operators, the default settings, and any path as a field. -/
def standardCompiler : Compiler :=
  ⟨.standard, {}, none⟩

/-- A rule on a field of texts, as a widget writes it. -/
def textRule (field operator : String) (value : Json) : Json :=
  .obj [("id", .str field), ("field", .str field), ("type", .str "string"),
    ("input", .str "text"), ("operator", .str operator), ("value", value)]

/-- A group of a rule, a group without rules, and a group of one rule. -/
def nestedPayload : Json :=
  .obj [("condition", .str "or"), ("rules", .arr
    [textRule "a" "equal" (.num (.int 1)),
      .obj [("rules", .arr [.null])],
      .obj [("condition", .str "and"), ("rules", .arr [textRule "b" "in" (.str "x, y")])]])]

/-- What `nestedPayload` hands to a sink that has `p1` bound. -/
def nestedCalls : List Call :=
  [.add .or (.leaf ⟨"a", .equal, .single "p0"⟩), .add .or (.leaf ⟨"b", .isIn, .list ["p2", "p3"]⟩),
    .bind "p0" (.int 1), .bind "p2" (.text "x"), .bind "p3" (.text "y")]

end RuleFilter
