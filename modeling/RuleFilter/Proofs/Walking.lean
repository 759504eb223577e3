import RuleFilter.Proofs.Drafting
import RuleFilter.Proofs.Planning

/-! # Working in place

A compilation can also be done in one walk over the rule tree that works in place: every rule is put
into the draft of its group as soon as it is read, its names drawn one by one, and only at the end
the draft is committed to the sink. The walk has the sink, the draft, the names and the log at hand
all the time, and an error does not undo what it has done to them (`Walk`). It comes to the same as
planning the tree as a whole and drafting the plan (`Compiler.comesTo_compileNodeInPlace`), and
where it ends with an error the sink is as it was, because a node is put into the draft and nowhere
else (`Compiler.carriesOut_walk`).

A comparison is handed over in the same manner (`Emission.emit`), and comes to the same as handing
it over as a whole (`Emission.emit_eq`). -/

namespace RuleFilter

/-! ### Comparisons in place -/

/-- A computation on a sink and a supply. What it has done to them before an error stays done. -/
abbrev Emission (σ : Type) := EStateM CompileError (σ × NameSupply)

namespace Emission

variable {σ : Type}

/-- Draws a name for a value. -/
def draw (taken : List String) (value : Value) : Emission σ Labelled := fun (sink, supply) =>
  .ok ((supply.draw taken).1, value) (sink, (supply.draw taken).2)

/-- Draws a name for every value. -/
def drawAll (taken : List String) : List Value → Emission σ (List Labelled)
  | [] => return []
  | value :: rest => do
    let first ← draw taken value
    let others ← drawAll taken rest
    return first :: others

/-- Builds the right-hand side of a comparison, and draws the names while it does. -/
def operand (taken : List String) (field : String) (o : Operator) (argument : Argument) :
    Emission σ (Operand Labelled) :=
  match o.arity, argument with
  | .none, _ => return if o.comparison.isNullCheck then .none else .blank
  | .one, .single value => return .single (← draw taken value)
  | .two, .list [low, high] => return .range (← draw taken low) (← draw taken high)
  | .several, .list (value :: rest) => return .list (← drawAll taken (value :: rest))
  | arity, argument => throw (.arityMismatch field o.name arity argument.shape)

/-- Hands a comparison to the sink, and then its bindings one by one. -/
def emit [Sink σ] (taken : List String) (c : Connective) (field : String) (o : Operator)
    (argument : Argument) : Emission σ Unit := do
  let operand ← operand taken field o argument
  modify fun (sink, supply) =>
    (Sink.add sink c (.leaf ⟨field, o.comparison, operand.map Prod.fst⟩), supply)
  for label in operand.toList do
    modify fun (sink, supply) => (Sink.bind sink label.1 label.2, supply)

theorem drawAll_eq (taken : List String) (sink : σ) : ∀ (values : List Value)
    (supply : NameSupply), drawAll taken values (sink, supply) =
      .ok (supply.label taken values).1 (sink, (supply.label taken values).2)
  | [], _ => rfl
  | value :: rest, supply => by
    have ih := drawAll_eq taken sink rest (supply.draw taken).2
    simp only [drawAll, bind, EStateM.bind, draw, ih]
    rfl

/-- A right-hand side is built with all its names, or none has been drawn. -/
theorem operand_eq (taken : List String) (field : String) (o : Operator) (argument : Argument)
    (sink : σ) (supply : NameSupply) :
    operand taken field o argument (sink, supply) =
      match o.operand? argument with
      | some operand => .ok (operand.label taken supply).1 (sink, (operand.label taken supply).2)
      | none => .error (.arityMismatch field o.name o.arity argument.shape) (sink, supply) := by
  unfold operand Operator.operand?
  cases o.arity with
  | none => cases o.comparison.isNullCheck <;> rfl
  | one => cases argument <;> rfl
  | two =>
    cases argument with
    | list values =>
      match values with
      | [] | [_] | [_, _] | _ :: _ :: _ :: _ => rfl
    | _ => rfl
  | several =>
    cases argument with
    | list values =>
      cases values with
      | nil => rfl
      | cons value rest =>
        simp only [bind, EStateM.bind, drawAll_eq]
        rfl
    | _ => rfl

variable [Sink σ]

theorem bindEach_eq : ∀ (labels : List Labelled) (sink : σ) (supply : NameSupply),
    (do for label in labels do
          modify fun (sink, supply) => (Sink.bind sink label.1 label.2, supply) : Emission σ Unit)
      (sink, supply) = .ok () (Sink.bindAll sink labels, supply)
  | [], _, _ => rfl
  | label :: rest, sink, supply => by
    have ih := bindEach_eq rest (Sink.bind sink label.1 label.2) supply
    rw [List.forIn_cons]
    exact ih

/-- **Working in place comes to the same**, and an error finds sink and supply untouched. -/
theorem emit_eq (taken : List String) (c : Connective) (field : String) (o : Operator)
    (argument : Argument) (state : σ × NameSupply) :
    emit taken c field o argument state =
      match Sink.addComparison taken c field o argument state with
      | .ok after => .ok () after
      | .error e => .error e state := by
  obtain ⟨sink, supply⟩ := state
  unfold emit Sink.addComparison Operator.compare
  simp only [bind, EStateM.bind, operand_eq]
  cases o.operand? argument with
  | none => rfl
  | some operand => exact bindEach_eq _ _ _

end Emission

/-! ### Walks -/

/-- What a walk works on: the sink, the draft of the group that is being read, the names that are
left, and the log so far. -/
structure Workbench (σ : Type) where
  sink : σ
  draft : Draft
  supply : NameSupply
  log : List Event

/-- A computation on a workbench. What it has done before an error stays done. -/
abbrev Walk (σ : Type) := EStateM CompileError (Workbench σ)

namespace Walk

variable {σ α β : Type} {w w' : Workbench σ} {e : CompileError}

/-- Writes an entry of the log. -/
def tell (event : Event) : Walk σ Unit :=
  modify fun w => { w with log := w.log ++ [event] }

/-- A result or an error. -/
def lift : Except CompileError α → Walk σ α
  | .ok a => return a
  | .error e => throw e

/-- Starts a draft, and returns the one before it. -/
def openDraft : Walk σ Draft :=
  modifyGet fun w => (w.draft, { w with draft := .empty })

/-- Works on the draft and the names; it is told which names the sink has bound. -/
def emitting [Sink σ] (x : List String → Emission Draft Unit) : Walk σ Unit := fun w =>
  match x (Sink.boundNames w.sink) (w.draft, w.supply) with
  | .ok () (draft, supply) => .ok () { w with draft, supply }
  | .error e (draft, supply) => .error e { w with draft, supply }

/-- The workbench after a walk, at its end or at its error. -/
def after (x : Walk σ Unit) (w : Workbench σ) : Workbench σ :=
  match x w with
  | .ok () w' => w'
  | .error _ w' => w'

/-- A walk as a traced computation: the sink at its end, or its error, with the log. -/
def traced (x : Walk σ Unit) (w : Workbench σ) : Traced σ :=
  match x w with
  | .ok () w' => ⟨w'.log, .ok w'.sink⟩
  | .error e w' => ⟨w'.log, .error e⟩

theorem bind_of_ok {x : Walk σ α} {a : α} (h : x w = .ok a w') (f : α → Walk σ β) :
    (x >>= f) w = f a w' := by
  show EStateM.bind x f w = _
  unfold EStateM.bind
  rw [h]

theorem bind_of_error {x : Walk σ α} (h : x w = .error e w') (f : α → Walk σ β) :
    (x >>= f) w = .error e w' := by
  show EStateM.bind x f w = _
  unfold EStateM.bind
  rw [h]

end Walk

namespace Compiler

variable {σ : Type} [Sink σ]

/-- Puts the comparison of a rule into the draft. -/
def walkRule (compiler : Compiler) (c : Connective) (rule : Rule) : Walk σ Unit := do
  Walk.lift (compiler.checkField rule.field)
  let (o, argument) ← Walk.lift (rule.coerce compiler.operators compiler.settings)
  Walk.emitting fun taken => Emission.emit taken c rule.field o argument

/-- Puts a leaf into the draft, if it is a rule. -/
def walkLeaf (compiler : Compiler) (c : Connective) (members : Option Members) : Walk σ Unit :=
  match Rule.ofLeaf compiler.operators members with
  | .error reason => Walk.tell (.skipped (displayId members) reason)
  | .ok rule => compiler.walkRule c rule

mutual

/-- Puts a node into the draft of the group around it. -/
def walk (compiler : Compiler) (c : Connective) : RuleNode → Walk σ Unit
  | .leaf members => compiler.walkLeaf c members
  | .group condition rules => do
    let inner ← Walk.lift (compiler.connectiveOf condition)
    Walk.tell (.enteredGroup inner rules.length)
    let around ← Walk.openDraft
    walkAll compiler inner rules
    modify fun w => { w with draft := w.draft.attach around inner c }

/-- Puts nodes into the draft in their order. -/
def walkAll (compiler : Compiler) (c : Connective) : List RuleNode → Walk σ Unit
  | [] => return ()
  | node :: rest => do
    walk compiler c node
    walkAll compiler c rest

end

/-- The workbench for a compilation into a sink. -/
def workbench (compiler : Compiler) (sink : σ) : Workbench σ :=
  ⟨sink, .empty, .ofStem compiler.settings.placeholderStem, []⟩

/-- Compiles a rule tree in place. -/
def compileNodeInPlace (compiler : Compiler) : RuleNode → Walk σ Unit
  | .leaf _ => Walk.tell .noRules
  | .group condition rules => do
    let c ← Walk.lift (compiler.connectiveOf condition)
    compiler.walkAll c rules
    modify fun w => { w with
      log := w.log ++ [.committing w.draft.bindings.length]
      sink := w.draft.commit w.sink }

/-- Compiles a document in place. -/
def compileJsonInPlace (compiler : Compiler) (payload : Json) : Walk σ Unit :=
  compiler.compileNodeInPlace (.ofJson payload)

/-- Compiles the text of a payload in place. -/
def compileInPlace (compiler : Compiler) (payload : String) : Walk σ Unit :=
  match Json.ofPayload? payload with
  | none => throw .malformedPayload
  | some document => compiler.compileJsonInPlace document

end Compiler

/-! ### Walking and planning -/

/-- The workbench with plans in the draft and entries in the log. -/
def Workbench.placed {σ : Type} [Sink σ] (w : Workbench σ) (c : Connective) (parts : List Plan)
    (log : List Event) : Workbench σ where
  sink := w.sink
  draft := (Draft.placeAll (Sink.boundNames w.sink) c parts (w.draft, w.supply)).1
  supply := (Draft.placeAll (Sink.boundNames w.sink) c parts (w.draft, w.supply)).2
  log := w.log ++ log

theorem Draft.placeAll_append (taken : List String) (c : Connective) (others : List Plan) :
    ∀ (parts : List Plan) (state : Draft × NameSupply),
      placeAll taken c (parts ++ others) state =
        placeAll taken c others (placeAll taken c parts state)
  | [], _ => rfl
  | part :: rest, state => by
    rw [List.cons_append, placeAll, placeAll, placeAll_append taken c others rest]

namespace Workbench

variable {σ : Type} [Sink σ] (w : Workbench σ) (c : Connective)

theorem placed_nil : w.placed c [] [] = w := by
  unfold placed
  rw [List.append_nil]
  rfl

theorem placed_placed (parts others : List Plan) (log later : List Event) :
    (w.placed c parts log).placed c others later = w.placed c (parts ++ others) (log ++ later) := by
  unfold placed
  rw [Draft.placeAll_append, List.append_assoc]

end Workbench

/-- A walk carries out what is planned: it puts the plans into the draft and logs what planning
logs. Where planning ends with an error the walk does so too, with the same log, and leaves the sink
as it was. -/
structure CarriesOut {σ α : Type} [Sink σ] (x : Walk σ Unit) (c : Connective) (planned : Traced α)
    (parts : α → List Plan) : Prop where
  ok : ∀ {a}, planned.result = .ok a → ∀ w, x w = .ok () (w.placed c (parts a) planned.log)
  error : ∀ {e}, planned.result = .error e → ∀ w, ∃ w',
    x w = .error e w' ∧ w'.sink = w.sink ∧ w'.log = w.log ++ planned.log

namespace CarriesOut

variable {σ α β : Type} [Sink σ] {c : Connective}

/-- Where nothing can be planned nothing is done. -/
theorem of_error {x : Walk σ Unit} {planned : Traced α} {parts : α → List Plan} {e : CompileError}
    (hx : ∀ w, x w = .error e w) (hresult : planned.result = .error e) (hlog : planned.log = []) :
    CarriesOut x c planned parts where
  ok h := by
    rw [hresult] at h
    cases h
  error h w := by
    rw [hresult] at h
    cases h
    exact ⟨w, hx w, rfl, by rw [hlog, List.append_nil]⟩

/-- Plans are carried out one after the other. -/
theorem append {x y : Walk σ Unit} {first : Traced (Option Plan)} {others : Traced (List Plan)}
    (hx : CarriesOut x c first Option.toList) (hy : CarriesOut y c others id) :
    CarriesOut (x >>= fun _ => y) c
      (first >>= fun f => others >>= fun fs => Pure.pure (f.toList ++ fs)) id := by
  cases hf : first.result with
  | error e =>
    refine ⟨fun h => ?_, fun h w => ?_⟩
    all_goals
      rw [Traced.result_bind, hf] at h
      cases h
    obtain ⟨w', hrun, hsink, hlog⟩ := hx.error hf w
    refine ⟨w', Walk.bind_of_error hrun _, hsink, ?_⟩
    simp only [hlog, Traced.log_bind, hf, List.append_nil]
  | ok f =>
    have hlog : (first >>= fun f => others >>= fun fs =>
        (Pure.pure (f.toList ++ fs) : Traced _)).log = first.log ++ others.log := by
      rw [Traced.log_bind, hf]
      exact congrArg _ (Traced.log_bind_pure others _)
    refine ⟨fun {parts} h w => ?_, fun {e} h w => ?_⟩
    all_goals
      rw [Traced.result_bind, hf] at h
      change (others >>= fun fs => (Pure.pure (f.toList ++ fs) : Traced _)).result = _ at h
    · obtain ⟨fs, hfs, h⟩ := Traced.result_bind_eq_ok.mp h
      cases h
      rw [Walk.bind_of_ok (hx.ok hf w), hy.ok hfs, hlog, Workbench.placed_placed]
      rfl
    · have hfs : others.result = .error e := Traced.error_of_bind_pure h
      obtain ⟨w', hrun, hsink, hlog'⟩ := hy.error hfs (w.placed c f.toList first.log)
      refine ⟨w', (Walk.bind_of_ok (hx.ok hf w) _).trans hrun, hsink, ?_⟩
      rw [hlog', hlog, ← List.append_assoc]
      rfl

/-- A group is carried out on a draft of its own, which is then attached to the one around it. -/
theorem group {x : Walk σ Unit} {inner : Connective} {planned : Traced (List Plan)}
    (hx : CarriesOut x inner planned id) (event : Event) :
    CarriesOut
      (do
        Walk.tell event
        let around ← Walk.openDraft
        x
        modify fun w => { w with draft := w.draft.attach around inner c })
      c
      (do
        Traced.tell event
        let parts ← planned
        return some (.group inner parts)) Option.toList := by
  let start (w : Workbench σ) : Workbench σ :=
    { w with draft := .empty, log := w.log ++ [event] }
  have hlog : (do
      Traced.tell event
      let parts ← planned
      return some (.group inner parts) : Traced (Option Plan)).log = event :: planned.log := by
    rw [Traced.log_bind]
    exact congrArg _ (Traced.log_bind_pure planned _)
  refine ⟨fun {part} h w => ?_, fun {e} h w => ?_⟩
  · obtain ⟨-, -, h⟩ := Traced.result_bind_eq_ok.mp h
    obtain ⟨parts, hparts, h⟩ := Traced.result_bind_eq_ok.mp h
    cases h
    refine (Walk.bind_of_ok (w := start w) (hx.ok hparts (start w)) _).trans ?_
    have hplaced : { (start w).placed inner parts planned.log with
        draft := ((start w).placed inner parts planned.log).draft.attach w.draft inner c } =
          w.placed c [.group inner parts] (event :: planned.log) := by
      unfold Workbench.placed
      rw [← List.append_cons]
      rfl
    rw [hlog]
    exact congrArg (EStateM.Result.ok ()) hplaced
  · have hparts : planned.result = .error e := Traced.error_of_bind_pure h
    obtain ⟨w', hrun, hsink, hlog'⟩ := hx.error hparts (start w)
    refine ⟨w', Walk.bind_of_error (w := start w) hrun _, hsink, ?_⟩
    rw [hlog', hlog]
    exact List.append_assoc _ _ _

end CarriesOut

namespace Compiler

variable {σ : Type} [Sink σ] (compiler : Compiler)

/-- A rule is put into the draft as a whole or not at all. -/
theorem walkRule_eq (c : Connective) (rule : Rule) (w : Workbench σ) :
    compiler.walkRule c rule w =
      match compiler.comparison rule with
      | .ok p => .ok () (w.placed c [.leaf p] [])
      | .error e => .error e w := by
  unfold walkRule comparison
  cases compiler.checkField rule.field with
  | error e => rfl
  | ok _ =>
    cases rule.coerce compiler.operators compiler.settings with
    | error e => rfl
    | ok coerced =>
      obtain ⟨o, argument⟩ := coerced
      show Walk.emitting (fun taken => Emission.emit taken c rule.field o argument) w =
        match o.compare rule.field argument with
        | .ok p => .ok () (w.placed c [.leaf p] [])
        | .error e => .error e w
      simp only [Walk.emitting, Emission.emit_eq, Sink.addComparison, Workbench.placed,
        List.append_nil]
      cases o.compare rule.field argument <;> rfl

theorem carriesOut_walkLeaf (c : Connective) (members : Option Members) :
    CarriesOut (σ := σ) (compiler.walkLeaf c members) c (compiler.planLeaf members)
      Option.toList := by
  unfold walkLeaf planLeaf
  cases Rule.ofLeaf compiler.operators members with
  | error reason =>
    refine ⟨fun {part} h w => ?_, nofun⟩
    cases h
    rfl
  | ok rule =>
    have hrule := compiler.walkRule_eq (σ := σ) c rule
    simp only
    cases hp : compiler.comparison rule with
    | ok p =>
      rw [hp] at hrule
      refine ⟨fun {part} h w => ?_, nofun⟩
      cases h
      exact hrule w
    | error e =>
      rw [hp] at hrule
      exact .of_error hrule rfl rfl

mutual

/-- **A node is walked as it is planned.** -/
theorem carriesOut_walk : ∀ (node : RuleNode) (c : Connective),
    CarriesOut (σ := σ) (compiler.walk c node) c (compiler.plan node) Option.toList
  | .leaf members, c => compiler.carriesOut_walkLeaf c members
  | .group condition rules, c => by
    have hrules := carriesOut_walkAll rules
    unfold walk plan
    cases compiler.connectiveOf condition with
    | error e => exact .of_error (fun w => rfl) rfl rfl
    | ok inner => exact (hrules inner).group (.enteredGroup inner rules.length)

theorem carriesOut_walkAll : ∀ (rules : List RuleNode) (c : Connective),
    CarriesOut (σ := σ) (compiler.walkAll c rules) c (compiler.planAll rules) id
  | [], c => by
    refine ⟨fun {parts} h w => ?_, nofun⟩
    cases h
    exact congrArg (EStateM.Result.ok ()) (w.placed_nil c).symm
  | node :: rest, c => (carriesOut_walk node c).append (carriesOut_walkAll rest c)

end

end Compiler

/-! ### Compilations in place -/

namespace Walk

variable {σ : Type} {sink : σ}

/-- A walk comes to the same as a compilation: it ends as the compilation does, with the same log,
and if it ends with an error the sink is as it was. -/
inductive ComesTo (sink : σ) :
    EStateM.Result CompileError (Workbench σ) Unit → Traced σ → Prop where
  | ok (w : Workbench σ) : ComesTo sink (.ok () w) ⟨w.log, .ok w.sink⟩
  | error (e : CompileError) (w : Workbench σ) (kept : w.sink = sink) :
    ComesTo sink (.error e w) ⟨w.log, .error e⟩

variable {x : Walk σ Unit} {w : Workbench σ} {t : Traced σ}

theorem traced_of_comesTo (h : ComesTo sink (x w) t) : x.traced w = t := by
  unfold traced
  generalize x w = ended at h
  cases h <;> rfl

/-- The sink at the end is the result, or the old one if there is none. -/
theorem sink_of_comesTo (h : ComesTo sink (x w) t) :
    (x.after w).sink = t.result.toOption.getD sink := by
  unfold after
  generalize x w = ended at h
  cases h with
  | ok w => rfl
  | error e w kept => exact kept

end Walk

namespace Compiler

variable {σ : Type} [Sink σ] (compiler : Compiler)

/-- **Compiling a rule tree in place comes to the same as planning it as a whole.** -/
theorem comesTo_compileNodeInPlace (node : RuleNode) (sink : σ) :
    Walk.ComesTo sink (compiler.compileNodeInPlace node (compiler.workbench sink))
      (compiler.compileNode node sink) := by
  cases node with
  | leaf members => exact .ok _
  | group condition rules =>
    unfold compileNode compileNodeInPlace
    simp only
    cases compiler.connectiveOf condition with
    | error e => exact .error e _ rfl
    | ok c =>
      have hrules := carriesOut_walkAll (σ := σ) compiler rules c
      show Walk.ComesTo sink ((compiler.walkAll c rules >>= fun _ => _) _)
        (Traced.bind (compiler.planAll rules) fun parts => _)
      cases hparts : (compiler.planAll rules).result with
      | error e =>
        obtain ⟨w, hrun, hsink, hlog⟩ := hrules.error hparts (compiler.workbench sink)
        rw [Walk.bind_of_error hrun, Traced.bind, hparts]
        have hlog : w.log = (compiler.planAll rules).log := hlog
        rw [← hlog]
        exact .error e w hsink
      | ok parts =>
        rw [Walk.bind_of_ok (hrules.ok hparts (compiler.workbench sink)), Traced.bind, hparts]
        exact .ok _

theorem comesTo_compileJsonInPlace (payload : Json) (sink : σ) :
    Walk.ComesTo sink (compiler.compileJsonInPlace payload (compiler.workbench sink))
      (compiler.compileJson payload sink) :=
  compiler.comesTo_compileNodeInPlace (.ofJson payload) sink

theorem comesTo_compileInPlace (payload : String) (sink : σ) :
    Walk.ComesTo sink (compiler.compileInPlace payload (compiler.workbench sink))
      (compiler.compile payload sink) := by
  unfold compileInPlace compile
  cases Json.ofPayload? payload with
  | none => exact .error .malformedPayload _ rfl
  | some document => exact compiler.comesTo_compileJsonInPlace document sink

end Compiler

end RuleFilter
