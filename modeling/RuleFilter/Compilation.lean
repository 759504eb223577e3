import RuleFilter.Plan
import RuleFilter.Draft
import RuleFilter.Json.Reader

/-! # Compilation

A payload is planned as a whole before a sink is touched. The plan is then drafted: every value gets
a placeholder name that the sink does not have bound, and the draft of each nested group is attached
to the draft around it. Last, the draft of the root is committed to the sink. So an error leaves the
sink as it was, and names are drawn in document order. -/

namespace RuleFilter

namespace Draft

mutual

/-- Adds a plan to a draft, drawing names for its values. -/
def place (taken : List String) (connective : Connective) :
    Plan → Draft × NameSupply → Draft × NameSupply
  | .leaf p, state => Sink.place taken connective p state
  | .group condition parts, (draft, supply) =>
    let (inner, supply) := placeAll taken condition parts (empty, supply)
    (inner.attach draft condition connective, supply)

/-- Adds plans to a draft in their order. -/
def placeAll (taken : List String) (connective : Connective) :
    List Plan → Draft × NameSupply → Draft × NameSupply
  | [], state => state
  | part :: rest, state => placeAll taken connective rest (place taken connective part state)

end

end Draft

namespace Compiler

variable {σ : Type} [Sink σ]

/-- The draft of the parts of a root group, with names that a sink does not have bound. -/
def draft (compiler : Compiler) (sink : σ) (connective : Connective) (parts : List Plan) : Draft :=
  (Draft.placeAll (Sink.boundNames sink) connective parts
    (Draft.empty, .ofStem compiler.settings.placeholderStem)).1

/-- Compiles a rule tree into a sink. A tree that is no group leaves the sink as it is. -/
def compileNode (compiler : Compiler) (node : RuleNode) (sink : σ) : Traced σ :=
  match node with
  | .leaf _ => do
    Traced.tell .noRules
    return sink
  | .group condition rules => do
    let connective ← Traced.lift (compiler.connectiveOf condition)
    let parts ← compiler.planAll rules
    let draft := compiler.draft sink connective parts
    Traced.tell (.committing draft.bindings.length)
    return draft.commit sink

/-- Compiles a document into a sink. -/
def compileJson (compiler : Compiler) (payload : Json) (sink : σ) : Traced σ :=
  compiler.compileNode (.ofJson payload) sink

/-- Compiles the text of a payload into a sink. -/
def compile (compiler : Compiler) (payload : String) (sink : σ) : Traced σ :=
  match Json.ofPayload? payload with
  | none => Traced.lift (.error .malformedPayload)
  | some document => compiler.compileJson document sink

end Compiler

end RuleFilter
