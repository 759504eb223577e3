import RuleFilter.Sink

/-! # Drafts

A draft holds the filters and bindings of one group until the whole group is known. A nested group
is attached to the draft around it as one part; the draft of the root is committed part by part. -/

namespace RuleFilter

/-- The parts of a group, each with the connective it was added with, and their bindings. -/
structure Draft where
  parts : List (Connective × Filter String)
  bindings : Bindings

namespace Draft

/-- No parts and no bindings. -/
def empty : Draft :=
  ⟨[], []⟩

/-- Whether there are no parts. -/
def isEmpty (d : Draft) : Bool :=
  d.parts.isEmpty

instance : Sink Draft where
  add d connective f := { d with parts := d.parts ++ [(connective, f)] }
  bind d name value := { d with bindings := d.bindings ++ [(name, value)] }
  boundNames d := d.bindings.map Prod.fst

/-- Joins the parts under the group's own condition and adds the result to a sink as one part. A
draft without parts adds nothing, not even its bindings. -/
def attach {σ : Type} [Sink σ] (d : Draft) (sink : σ) (condition connective : Connective) : σ :=
  match Filter.join? condition (d.parts.map Prod.snd) with
  | none => sink
  | some joined => Sink.bindAll (Sink.add sink connective joined) d.bindings

/-- Adds every part to a sink, then every binding. -/
def commit {σ : Type} [Sink σ] (d : Draft) (sink : σ) : σ :=
  Sink.bindAll (d.parts.foldl (fun s part => Sink.add s part.1 part.2) sink) d.bindings

end Draft

end RuleFilter
