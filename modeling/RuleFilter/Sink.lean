import RuleFilter.Query

/-! # Sinks

A sink takes filters and bindings one after the other, and says which placeholder names it already
has bound. A query is one; a `Recorder` only writes down what it is handed. -/

namespace RuleFilter

/-- What filters and bindings are handed to. -/
class Sink (σ : Type) where
  /-- Takes a filter, joined to what came before. -/
  add : σ → Connective → Filter String → σ
  /-- Takes the value of a placeholder. -/
  bind : σ → String → Value → σ
  /-- The placeholder names that are in use. -/
  boundNames : σ → List String

/-- Hands over bindings in their order. -/
def Sink.bindAll {σ : Type} [Sink σ] (sink : σ) (bindings : Bindings) : σ :=
  bindings.foldl (fun s b => Sink.bind s b.1 b.2) sink

instance : Sink Query where
  add := Query.add
  bind := Query.bind
  boundNames q := q.bindings.map Prod.fst

/-! ### Recorders -/

/-- What a sink is handed. -/
inductive Call where
  | add (connective : Connective) (f : Filter String)
  | bind (name : String) (value : Value)

/-- The name that a call binds. -/
def Call.boundName? : Call → Option String
  | .add _ _ => none
  | .bind name _ => some name

/-- The calls made so far, in their order, and the names in use from the start. -/
structure Recorder where
  taken : List String
  calls : List Call

namespace Recorder

/-- A recorder with names in use. -/
def withTaken (taken : List String) : Recorder :=
  ⟨taken, []⟩

/-- Writes down a call. -/
def record (r : Recorder) (call : Call) : Recorder :=
  { r with calls := r.calls ++ [call] }

end Recorder

instance : Sink Recorder where
  add r connective f := r.record (.add connective f)
  bind r name value := r.record (.bind name value)
  boundNames r := r.taken ++ r.calls.filterMap Call.boundName?

end RuleFilter
