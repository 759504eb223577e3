import RuleFilter.Bindings
import RuleFilter.Filter.Basic
import RuleFilter.Filter.Dialect

/-! # Rendering for prepared statements

A renderer goes through a filter once, from left to right. It writes paths in quotes and
placeholders by their number, and collects the values of the placeholders on its way. A name without
a value does not stop it: the first one of them is reported at the end. -/

namespace RuleFilter

/-- A placeholder has no value. -/
inductive RenderError where
  | unbound (name : String)
  deriving DecidableEq

/-- The wording of the error. -/
def RenderError.message : RenderError → String
  | .unbound name => "Placeholder ':" ++ name ++ "' has no bound value"

/-- A statement that is being written: its text, the values of its placeholders so far, and the
names that turned out to have none. -/
structure Renderer where
  dialect : Dialect
  bindings : Bindings
  sql : String
  values : List Value
  unbound : List String

namespace Renderer

/-- A renderer that has written nothing. -/
def fresh (d : Dialect) (bindings : Bindings) : Renderer :=
  ⟨d, bindings, "", [], []⟩

/-- Writes a text. -/
def push (r : Renderer) (text : String) : Renderer :=
  { r with sql := r.sql ++ text }

/-- Writes a path in quotes. -/
def pushPath (r : Renderer) (path : String) : Renderer :=
  r.push (String.ofList (r.dialect.quotePath path))

/-- Writes a separator in front of an item, unless it is the first one. -/
def separate (r : Renderer) (separator : String) (index : Nat) : Renderer :=
  if 0 < index then r.push separator else r

/-- Collects the value of a name. A name without a value is noted, and null takes its place. -/
def collect (r : Renderer) (name : String) : Renderer :=
  match r.bindings.lookup name with
  | some value => { r with values := r.values ++ [value] }
  | none => { r with values := r.values ++ [.null], unbound := r.unbound ++ [name] }

/-- Collects the value of a name and writes its placeholder. -/
def addParam (r : Renderer) (name : String) : Renderer :=
  let r := r.collect name
  r.push (String.ofList (r.dialect.placeholder (r.values.length - 1)))

/-- Writes the placeholders of a list, the first of them at the given index. -/
def addParams (r : Renderer) (index : Nat) : List String → Renderer
  | [] => r
  | name :: rest => ((r.separate ", " index).addParam name).addParams (index + 1) rest

/-- The statement and the values of its placeholders, or the first name without a value. -/
def finish (r : Renderer) : Except RenderError (String × List Value) :=
  match r.unbound with
  | [] => .ok (r.sql, r.values)
  | name :: _ => .error (.unbound name)

end Renderer

/-- Writes the right-hand side of a comparison. -/
def Operand.render (r : Renderer) : Operand String → Renderer
  | .none => r
  | .blank => r.push " ''"
  | .single name => (r.push " ").addParam name
  | .list names => ((r.push " (").addParams 0 names).push ")"
  | .range low high => (((r.push " ").addParam low).push " AND ").addParam high

/-- Writes a comparison. -/
def Predicate.render (r : Renderer) (p : Predicate String) : Renderer :=
  p.operand.render (((r.pushPath p.field).push " ").push p.comparison.sql)

namespace Filter

mutual

/-- Writes a filter. -/
def render (r : Renderer) : Filter String → Renderer
  | .leaf p => p.render r
  | .group .and parts => renderParts " AND " r 0 parts
  | .group .or parts => renderParts " OR " r 0 parts

/-- Writes parts of a group, the first of them at the given index. -/
def renderParts (joiner : String) (r : Renderer) (index : Nat) : List (Filter String) → Renderer
  | [] => r
  | part :: rest =>
    let r := r.separate joiner index
    let r := if part.isGroup then (part.render (r.push "(")).push ")" else part.render r
    renderParts joiner r (index + 1) rest

end

end Filter

end RuleFilter
