import RuleFilter.Proofs.Rendering
import RuleFilter.Proofs.Walking

/-! # Sessions

A session hands one query to compilers of all kinds and to its owner, in any order. A step of a
session is a list of calls whatever the sink (`Step.apply_eq`), so what holds after every call holds
after every session (`Watched.tracked_run`). A compilation is more than any list of calls: its names
are free, so it puts its bindings behind those of the query (`Step.apply_compilation`). -/

namespace RuleFilter

/-! ### Steps -/

/-- What happens to a sink in a session: a payload is compiled into it, or its owner makes a call.
-/
inductive Step where
  | compile (compiler : Compiler) (payload : String)
  | compileJson (compiler : Compiler) (payload : Json)
  | add (connective : Connective) (f : Filter String)
  | bind (name : String) (value : Value)

namespace Step

variable {σ : Type} [Sink σ]

/-- Whether a step compiles a payload. -/
def isCompilation : Step → Bool
  | .compile _ _ | .compileJson _ _ => true
  | .add _ _ | .bind _ _ => false

/-- The sink after a step. A compilation works in place, and its sink is the one that it leaves at
its end or at its error. -/
def apply (sink : σ) : Step → σ
  | .compile compiler payload =>
    ((compiler.compileInPlace payload).after (compiler.workbench sink)).sink
  | .compileJson compiler payload =>
    ((compiler.compileJsonInPlace payload).after (compiler.workbench sink)).sink
  | .add c f => Sink.add sink c f
  | .bind name value => Sink.bind sink name value

/-- The sink after the steps of a session. -/
def run (sink : σ) (steps : List Step) : σ :=
  steps.foldl apply sink

/-- **A compilation that fails leaves the sink as it was.** -/
theorem apply_compile (sink : σ) (compiler : Compiler) (payload : String) :
    (compile compiler payload).apply sink =
      (compiler.compile payload sink).result.toOption.getD sink :=
  Walk.sink_of_comesTo (compiler.comesTo_compileInPlace payload sink)

theorem apply_compileJson (sink : σ) (compiler : Compiler) (payload : Json) :
    (compileJson compiler payload).apply sink =
      (compiler.compileJson payload sink).result.toOption.getD sink :=
  Walk.sink_of_comesTo (compiler.comesTo_compileJsonInPlace payload sink)

/-- The text of a payload counts for its document; what is no document changes nothing. -/
theorem apply_compile_document (sink : σ) (compiler : Compiler) (payload : String) :
    (compile compiler payload).apply sink =
      match Json.ofPayload? payload with
      | none => sink
      | some document => (compileJson compiler document).apply sink := by
  rw [apply_compile]
  unfold Compiler.compile
  cases Json.ofPayload? payload with
  | none => rfl
  | some document => exact (apply_compileJson sink compiler document).symm

/-! ### Steps as calls -/

/-- The calls of a compilation; none if it fails. -/
def callsOfJson (taken : List String) (compiler : Compiler) (payload : Json) : List Call :=
  (compiler.calls taken (.ofJson payload)).toOption.getD []

/-- The calls that a step makes on a sink that has some names bound. -/
def calls (taken : List String) : Step → List Call
  | .compile compiler payload =>
    match Json.ofPayload? payload with
    | none => []
    | some document => callsOfJson taken compiler document
  | .compileJson compiler payload => callsOfJson taken compiler payload
  | .add c f => [.add c f]
  | .bind name value => [.bind name value]

theorem apply_compileJson_eq (sink : σ) (compiler : Compiler) (payload : Json) :
    (compileJson compiler payload).apply sink =
      Sink.receiveAll sink (callsOfJson (Sink.boundNames sink) compiler payload) := by
  unfold callsOfJson
  rw [apply_compileJson, Compiler.compileJson, Compiler.compileNode_result]
  cases compiler.calls (Sink.boundNames sink) (.ofJson payload) <;> rfl

/-- **A step is a list of calls**, the same on every sink with the same names bound. -/
theorem apply_eq (sink : σ) (step : Step) :
    step.apply sink = Sink.receiveAll sink (step.calls (Sink.boundNames sink)) := by
  cases step with
  | compile compiler payload =>
    rw [apply_compile_document, calls]
    cases Json.ofPayload? payload with
    | none => rfl
    | some document => exact apply_compileJson_eq sink compiler document
  | compileJson compiler payload => exact apply_compileJson_eq sink compiler payload
  | add c f => rfl
  | bind name value => rfl

/-! ### Compilations -/

theorem apply_compileJson_query (q : Query) (compiler : Compiler) (payload : Json) :
    (compileJson compiler payload).apply q = q ∨
      ∃ c parts, (compileJson compiler payload).apply q = compiler.delivered c parts q := by
  rw [apply_compileJson, Compiler.compileJson]
  cases RuleNode.ofJson payload with
  | leaf members => exact Or.inl rfl
  | group condition rules =>
    rw [Compiler.compileNode_query]
    cases compiler.connectiveOf condition with
    | error e => exact Or.inl rfl
    | ok c =>
      cases (compiler.planAll rules).result with
      | error e => exact Or.inl rfl
      | ok parts => exact Or.inr ⟨c, parts, rfl⟩

/-- A compilation leaves a query alone or delivers a plan to it. -/
theorem apply_compilation (q : Query) {step : Step} (h : step.isCompilation = true) :
    step.apply q = q ∨ ∃ (compiler : Compiler) (c : Connective) (parts : List Plan),
      step.apply q = compiler.delivered c parts q := by
  cases step with
  | compile compiler payload =>
    rw [apply_compile_document]
    cases Json.ofPayload? payload with
    | none => exact Or.inl rfl
    | some document =>
      exact (apply_compileJson_query q compiler document).imp id fun h => ⟨compiler, h⟩
  | compileJson compiler payload =>
    exact (apply_compileJson_query q compiler payload).imp id fun h => ⟨compiler, h⟩
  | add c f => cases h
  | bind name value => cases h

/-- **A compilation binds new names only.** -/
theorem extends_compilation (q : Query) {step : Step} (h : step.isCompilation = true) :
    q.Extends (step.apply q) := by
  rcases apply_compilation q h with heq | ⟨compiler, c, parts, heq⟩
  · rw [heq]
    exact ⟨[], (List.append_nil _).symm, fun name hname => by cases hname⟩
  · rw [heq]
    exact compiler.extends_delivered c parts q

theorem bound_compilation {q : Query} {step : Step} (h : step.isCompilation = true)
    (hq : q.Bound) : (step.apply q).Bound := by
  rcases apply_compilation q h with heq | ⟨compiler, c, parts, heq⟩
  · rwa [heq]
  · rw [heq]
    exact compiler.bound_delivered c parts hq

theorem bound_run : ∀ (steps : List Step) {q : Query},
    (∀ step ∈ steps, step.isCompilation = true) → q.Bound → (run q steps).Bound
  | [], _, _, hq => hq
  | step :: rest, q, h, hq => by
    have hstep := bound_compilation (h step List.mem_cons_self) hq
    exact bound_run rest (fun s hs => h s (List.mem_cons_of_mem _ hs)) hstep

end Step

/-! ### Queries under watch -/

/-- A query with every binding that it was ever given, the last one at the end. -/
structure Watched where
  query : Query
  given : Bindings

instance : Sink Watched where
  add w connective f := { w with query := w.query.add connective f }
  bind w name value := ⟨w.query.bind name value, w.given ++ [(name, value)]⟩
  boundNames w := Sink.boundNames w.query

namespace Watched

/-- A new query. -/
def fresh : Watched :=
  ⟨.empty, []⟩

theorem query_receiveAll : ∀ (calls : List Call) (w : Watched),
    (Sink.receiveAll w calls).query = Sink.receiveAll w.query calls
  | [], _ => rfl
  | call :: rest, w => by
    have hcall : (Sink.receive w call).query = Sink.receive w.query call := by
      cases call <;> rfl
    have ih := query_receiveAll rest (Sink.receive w call)
    rw [hcall] at ih
    exact ih

/-- Watching a query does not change what happens to it. -/
theorem query_run : ∀ (steps : List Step) (w : Watched),
    (Step.run w steps).query = Step.run w.query steps
  | [], _ => rfl
  | step :: rest, w => by
    have hstep : (step.apply w).query = step.apply w.query := by
      rw [Step.apply_eq, Step.apply_eq, query_receiveAll]
      rfl
    have ih := query_run rest (step.apply w)
    rw [hstep] at ih
    exact ih

/-- No name is bound twice, and the value of a name is the last one that it was given. -/
structure Tracked (w : Watched) : Prop where
  nodup : w.query.bindings.names.Nodup
  last : ∀ name, w.query.value? name = w.given.reverse.lookup name

theorem tracked_fresh : fresh.Tracked :=
  ⟨List.nodup_nil, fun _ => rfl⟩

theorem tracked_receive {w : Watched} (h : w.Tracked) (call : Call) :
    (Sink.receive w call).Tracked := by
  cases call with
  | add c f => exact ⟨h.nodup, h.last⟩
  | bind name value =>
    refine ⟨Bindings.nodup_assign h.nodup name value, fun n => ?_⟩
    show (w.query.bindings.assign name value).lookup n =
      (w.given ++ [(name, value)]).reverse.lookup n
    have hlast : w.query.bindings.lookup n = w.given.reverse.lookup n := h.last n
    rw [Bindings.lookup_assign, List.reverse_append, List.reverse_singleton,
      List.singleton_append, Bindings.lookup_cons_eq, hlast]

theorem tracked_receiveAll : ∀ (calls : List Call) {w : Watched},
    w.Tracked → (Sink.receiveAll w calls).Tracked
  | [], _, h => h
  | call :: rest, _, h => tracked_receiveAll rest (tracked_receive h call)

theorem tracked_run : ∀ (steps : List Step) {w : Watched}, w.Tracked → (Step.run w steps).Tracked
  | [], _, h => h
  | step :: rest, w, h => by
    have hstep : (step.apply w).Tracked := by
      rw [Step.apply_eq]
      exact tracked_receiveAll _ h
    exact tracked_run rest hstep

end Watched

/-! ### Sessions from a new query -/

/-- **A session keeps the bindings of its query safe.** After any steps on a new query no name is
bound twice and every name has the value that it was given last; a compilation that comes next puts
bindings of new names behind the others, and leaves no placeholder without a value unless there was
one before it. After compilations alone the query can be rendered. -/
theorem Step.run_safe (steps : List Step) :
    (Step.run Watched.fresh steps).query = Step.run Query.empty steps ∧
    (Step.run Query.empty steps).bindings.names.Nodup ∧
    (∀ name, (Step.run Query.empty steps).value? name =
      (Step.run Watched.fresh steps).given.reverse.lookup name) ∧
    (∀ step : Step, step.isCompilation = true →
      (Step.run Query.empty steps).Extends (step.apply (Step.run Query.empty steps)) ∧
      ((Step.run Query.empty steps).Bound → (step.apply (Step.run Query.empty steps)).Bound)) ∧
    ((∀ step ∈ steps, step.isCompilation = true) →
      ∀ d, ∃ answer, (Step.run Query.empty steps).render d = .ok answer) := by
  have hquery := Watched.query_run steps Watched.fresh
  have htracked := Watched.tracked_run steps Watched.tracked_fresh
  refine ⟨hquery, ?_, ?_, ?_, ?_⟩
  · have hnodup := htracked.nodup
    rwa [hquery] at hnodup
  · intro name
    have hlast := htracked.last name
    rwa [hquery] at hlast
  · exact fun step h => ⟨extends_compilation _ h, bound_compilation h⟩
  · intro h d
    have hempty : Query.empty.Bound := fun name hname => by cases hname
    exact Query.render_of_bound (bound_run steps h hempty) d

end RuleFilter
