import RuleFilter.Proofs.Session
import RuleFilter.Proofs.Splitting

/-! # Idle payloads

A payload is idle if it is refused or holds no rules. Whether it is does not hang on the sink
(`isIdle_eq`), and an idle payload that is compiled in place makes no call (`apply_of_isIdle`). So
when payloads are compiled in turn into one sink, the idle ones might as well have been left out
(`resultsInTurn_withoutIdle`). The calls on a sink are those that a log of it shows (`makes_iff`).
-/

namespace RuleFilter

/-! ### Logged sinks -/

/-- A sink with the calls that it was handed, in their order. -/
structure Logged (σ : Type) where
  sink : σ
  calls : List Call

namespace Logged

variable {σ : Type} [Sink σ]

instance : Sink (Logged σ) where
  add l connective f := ⟨Sink.add l.sink connective f, l.calls ++ [.add connective f]⟩
  bind l name value := ⟨Sink.bind l.sink name value, l.calls ++ [.bind name value]⟩
  boundNames l := Sink.boundNames l.sink

theorem receiveAll_eq : ∀ (calls : List Call) (l : Logged σ),
    Sink.receiveAll l calls = ⟨Sink.receiveAll l.sink calls, l.calls ++ calls⟩
  | [], l => by simp [Sink.receiveAll]
  | call :: rest, l => by
    have hcall : Sink.receive l call = ⟨Sink.receive l.sink call, l.calls ++ [call]⟩ := by
      cases call <;> rfl
    have hrest := receiveAll_eq rest ⟨Sink.receive l.sink call, l.calls ++ [call]⟩
    unfold Sink.receiveAll at hrest ⊢
    rw [List.foldl_cons, hcall, hrest, List.append_assoc, List.singleton_append]
    rfl

/-- Logging does not change what happens to a sink, and every call is logged. -/
theorem apply_eq (l : Logged σ) (step : Step) :
    step.apply l = ⟨step.apply l.sink, l.calls ++ step.calls (Sink.boundNames l.sink)⟩ := by
  rw [Step.apply_eq, Step.apply_eq, receiveAll_eq]
  rfl

theorem sink_run : ∀ (steps : List Step) (l : Logged σ),
    (Step.run l steps).sink = Step.run l.sink steps
  | [], _ => rfl
  | step :: rest, l => by
    have hstep : (step.apply l).sink = step.apply l.sink := by rw [apply_eq]
    have ih := sink_run rest (step.apply l)
    rw [hstep] at ih
    exact ih

end Logged

/-! ### The log of a compilation -/

section Log

variable {σ : Type} [Sink σ]

/-- A sink that has been handed nothing yet. -/
def Logged.fresh (sink : σ) : Logged σ :=
  ⟨sink, []⟩

namespace Compiler

/-- Compiling a payload into a sink succeeds, and it makes these calls: they lead the sink to where
it ends, and a log of the sink shows them. -/
structure Makes (compiler : Compiler) (payload : Json) (sink : σ) (called : List Call) : Prop where
  result : (compiler.compileJson payload sink).result = .ok (Sink.receiveAll sink called)
  log : (compiler.compileJson payload (Logged.fresh sink)).result =
    .ok ⟨Sink.receiveAll sink called, called⟩

variable (compiler : Compiler)

/-- The log of a compilation ends with the calls of its payload. -/
theorem compileJson_logged (payload : Json) (l : Logged σ) :
    (compiler.compileJson payload l).result =
      (compiler.calls (Sink.boundNames l.sink) (.ofJson payload)).map fun called =>
        ⟨Sink.receiveAll l.sink called, l.calls ++ called⟩ := by
  have hresult : (compiler.compileJson payload l).result =
      (compiler.calls (Sink.boundNames l) (.ofJson payload)).map (Sink.receiveAll l) :=
    compiler.compileNode_result (.ofJson payload) l
  have hreceive : Sink.receiveAll l =
      fun called => ⟨Sink.receiveAll l.sink called, l.calls ++ called⟩ :=
    funext fun called => Logged.receiveAll_eq called l
  rw [hresult, hreceive]
  rfl

variable {compiler}

theorem makes_iff {payload : Json} {sink : σ} {called : List Call} :
    compiler.Makes payload sink called ↔
      compiler.calls (Sink.boundNames sink) (.ofJson payload) = .ok called := by
  have hlogged := compiler.compileJson_logged payload (Logged.fresh sink)
  constructor
  · intro h
    have hlog := h.log
    rw [hlogged] at hlog
    obtain ⟨called', hcalled', heq⟩ := except_map_eq_ok.mp hlog
    have hsame : called' = called := congrArg Logged.calls heq
    rwa [← hsame]
  · intro h
    have hresult := compiler.compileNode_result (.ofJson payload) sink
    rw [h] at hresult
    refine ⟨hresult, ?_⟩
    rw [hlogged]
    exact except_map_eq_ok.mpr ⟨called, h, rfl⟩

end Compiler

end Log

/-! ### Texts of payloads -/

/-- The text is a document that has rules. -/
def Json.hasRules (payload : String) : Bool :=
  match (Json.ofPayload? payload).map RuleNode.ofJson with
  | some (.group _ _) => true
  | _ => false

namespace Compiler

variable {σ τ : Type} [Sink σ] [Sink τ] (compiler : Compiler)

/-- A payload is refused, or it has no rules. -/
def isIdle (sink : σ) (payload : String) : Bool :=
  !((compiler.compile payload sink).result.isOk && Json.hasRules payload)

/-- The sink after payloads compiled in place and in turn, errors or not. -/
def sinkAfter (sink : σ) (payloads : List String) : σ :=
  Step.run sink (payloads.map (Step.compile compiler))

/-- Payloads compiled in place and in turn, each with its result and its log. -/
def resultsInTurn (sink : σ) : List String → List (String × Traced σ)
  | [] => []
  | payload :: rest =>
    (payload, (compiler.compileInPlace payload).traced (compiler.workbench sink)) ::
      resultsInTurn ((Step.compile compiler payload).apply sink) rest

/-- What the text of a payload hands to a sink that has some names bound. -/
def callsOfText (taken : List String) (payload : String) : Except CompileError (List Call) :=
  match Json.ofPayload? payload with
  | none => .error .malformedPayload
  | some document => compiler.calls taken (.ofJson document)

theorem compile_result (sink : σ) (payload : String) :
    (compiler.compile payload sink).result =
      (compiler.callsOfText (Sink.boundNames sink) payload).map (Sink.receiveAll sink) := by
  unfold compile callsOfText
  cases Json.ofPayload? payload with
  | none => rfl
  | some document => exact compiler.compileNode_result (.ofJson document) sink

theorem isOk_calls (taken taken' : List String) (node : RuleNode) :
    (compiler.calls taken node).isOk = (compiler.calls taken' node).isOk := by
  cases h : compiler.calls taken node with
  | ok called =>
    obtain ⟨called', h'⟩ := calls_succeeds taken' h
    rw [h']
    rfl
  | error e =>
    cases h' : compiler.calls taken' node with
    | error e' => rfl
    | ok called' =>
      obtain ⟨called, hok⟩ := calls_succeeds taken h'
      rw [h] at hok
      cases hok

theorem isOk_result (sink : σ) (taken : List String) (payload : String) :
    (compiler.compile payload sink).result.isOk = (compiler.callsOfText taken payload).isOk := by
  have hmap {ε α β : Type} (x : Except ε α) (f : α → β) : (x.map f).isOk = x.isOk := by
    cases x <;> rfl
  rw [compile_result, hmap]
  unfold callsOfText
  cases Json.ofPayload? payload with
  | none => rfl
  | some document => exact compiler.isOk_calls _ taken (.ofJson document)

theorem calls_compile (taken : List String) (payload : String) :
    (Step.compile compiler payload).calls taken =
      (compiler.callsOfText taken payload).toOption.getD [] := by
  unfold callsOfText
  simp only [Step.calls]
  cases Json.ofPayload? payload <;> rfl

/-- **Whether a payload is idle does not hang on the sink.** -/
theorem isIdle_eq (sink : σ) (sink' : τ) (payload : String) :
    compiler.isIdle sink payload = compiler.isIdle sink' payload := by
  unfold isIdle
  rw [compiler.isOk_result sink [], compiler.isOk_result sink' []]

variable {compiler}

/-- A payload without rules makes no call. -/
theorem callsOfText_of_not_hasRules {taken : List String} {payload : String} {called : List Call}
    (h : Json.hasRules payload = false)
    (hcalled : compiler.callsOfText taken payload = .ok called) :
    called = [] := by
  unfold Json.hasRules at h
  unfold callsOfText at hcalled
  cases hdocument : Json.ofPayload? payload with
  | none =>
    rw [hdocument] at hcalled
    cases hcalled
  | some document =>
    cases hroot : RuleNode.ofJson document with
    | leaf members =>
      simp only [hdocument, hroot] at hcalled
      cases hcalled
      rfl
    | group condition rules => simp [hdocument, hroot] at h

/-- **An idle payload makes no call.** -/
theorem calls_of_isIdle {sink : σ} {payload : String}
    (h : compiler.isIdle sink payload = true) (taken : List String) :
    (Step.compile compiler payload).calls taken = [] := by
  unfold isIdle at h
  rw [compiler.isOk_result sink taken] at h
  rw [calls_compile]
  cases hcalled : compiler.callsOfText taken payload with
  | error e => rfl
  | ok called =>
    rw [hcalled] at h
    exact callsOfText_of_not_hasRules (by simpa [Except.isOk, Except.toBool] using h) hcalled

theorem apply_of_isIdle {sink : σ} {payload : String}
    (h : compiler.isIdle sink payload = true) (sink' : τ) :
    (Step.compile compiler payload).apply sink' = sink' := by
  rw [Step.apply_eq, calls_of_isIdle h]
  rfl

/-! ### Runs without the idle payloads -/

variable (compiler)

/-- The payloads that are not idle. -/
def withoutIdle (sink : σ) (payloads : List String) : List String :=
  payloads.filter fun payload => !compiler.isIdle sink payload

theorem sinkAfter_withoutIdle (sink : σ) : ∀ (payloads : List String) (sink' : τ),
    compiler.sinkAfter sink' (compiler.withoutIdle sink payloads) =
      compiler.sinkAfter sink' payloads
  | [], _ => rfl
  | payload :: rest, sink' => by
    have hrest := sinkAfter_withoutIdle sink rest ((Step.compile compiler payload).apply sink')
    unfold withoutIdle at hrest ⊢
    rw [List.filter_cons]
    split_ifs with h
    · exact hrest
    · have hsame : (Step.compile compiler payload).apply sink' = sink' :=
        apply_of_isIdle (by simpa using h) sink'
      rw [hsame] at hrest
      rw [hrest]
      show _ = compiler.sinkAfter ((Step.compile compiler payload).apply sink') rest
      rw [hsame]

theorem resultsInTurn_withoutIdle (sink : σ) : ∀ (payloads : List String) (sink' : τ),
    compiler.resultsInTurn sink' (compiler.withoutIdle sink payloads) =
      (compiler.resultsInTurn sink' payloads).filter fun r => !compiler.isIdle sink r.1
  | [], _ => rfl
  | payload :: rest, sink' => by
    have hrest := resultsInTurn_withoutIdle sink rest ((Step.compile compiler payload).apply sink')
    unfold withoutIdle at hrest ⊢
    rw [List.filter_cons, resultsInTurn, List.filter_cons]
    split_ifs with h
    · rw [resultsInTurn, hrest]
    · rw [← hrest, apply_of_isIdle (by simpa using h)]

/-- **Idle payloads leave no trace in a run.** Payloads compiled in turn leave a sink, a log of its
calls and results of the payloads that are not idle; all of these are as if the idle payloads had
not been there. A payload that is idle for one sink is idle for all. Every payload is compiled in
place, where an error would not undo a call, and comes to the same as one that is planned as a
whole; if it is idle, it leaves the sink and the log of its calls as they were. -/
theorem idle_leaves_no_trace (compiler : Compiler) (sink : Logged σ) (payloads : List String) :
    compiler.sinkAfter sink payloads =
        compiler.sinkAfter sink (compiler.withoutIdle sink payloads) ∧
      (compiler.sinkAfter sink payloads).sink = compiler.sinkAfter sink.sink payloads ∧
      ((compiler.resultsInTurn sink payloads).filter fun r => !compiler.isIdle sink r.1) =
        compiler.resultsInTurn sink (compiler.withoutIdle sink payloads) ∧
      ∀ (payload : String) (sink' : Logged τ),
        compiler.isIdle sink' payload = compiler.isIdle sink payload ∧
          (compiler.compileInPlace payload).traced (compiler.workbench sink') =
            compiler.compile payload sink' ∧
          (compiler.isIdle sink payload = true →
            ((compiler.compileInPlace payload).after (compiler.workbench sink')).sink = sink') := by
  refine ⟨?_, ?_, ?_, fun payload sink' => ⟨?_, ?_, fun h => ?_⟩⟩
  · exact (compiler.sinkAfter_withoutIdle sink payloads sink).symm
  · exact Logged.sink_run _ sink
  · exact (compiler.resultsInTurn_withoutIdle sink payloads sink).symm
  · exact compiler.isIdle_eq sink' sink payload
  · exact Walk.traced_of_comesTo (compiler.comesTo_compileInPlace payload sink')
  · exact apply_of_isIdle h sink'

end Compiler

end RuleFilter
