import RuleFilter.Proofs.QueryCalls
import RuleFilter.Proofs.Template

/-! # Rendering

What a renderer writes down, collects and misses on its way through a filter can be read off the
template of the filter (`Filter.render_eq`): writing one template and then another one is writing
both in a row (`Renderer.after_append`). So the statement for a database is the template with quoted
paths and numbered placeholders, and the references of the filter settle the values that come with
it, or the name that is reported instead of it (`Query.render_agrees_with_text`). -/

namespace RuleFilter

/-- The names without a value among several. -/
def Bindings.missing (bindings : Bindings) (names : List String) : List String :=
  names.filter fun name => name ∉ bindings.names

/-- The placeholder with a number; the first one of a statement has number one. -/
def Dialect.numbered : Dialect → Nat → List Char
  | .postgres, number => '$' :: (toString number).toList
  | .mysql, _ => ['?']

theorem Dialect.placeholder_eq (index : Nat) : ∀ d : Dialect,
    d.placeholder index = d.numbered (index + 1)
  | .postgres => by
    unfold placeholder numbered
    simp [toString, Nat.repr]
  | .mysql => rfl

/-! ### Rows of templates -/

namespace Template

/-- What stands in front of an item with an index: a separator, unless it is the first one. -/
def separator (cs : List Char) (index : Nat) : Template :=
  if 0 < index then [.verbatim cs] else []

/-- Templates with separators, the first of them at the given index. -/
def row (cs : List Char) (index : Nat) : List Template → Template
  | [] => []
  | t :: rest => separator cs index ++ t ++ row cs (index + 1) rest

theorem row_behind (cs : List Char) : ∀ (ts : List Template) (index : Nat),
    row cs (index + 1) ts = ts.flatMap ([.verbatim cs] ++ ·)
  | [], _ => rfl
  | t :: rest, index => by
    rw [row, separator, if_pos (Nat.succ_pos index), row_behind cs rest, List.flatMap_cons]

theorem row_zero (cs : List Char) : ∀ ts : List Template,
    row cs 0 ts = List.intercalate [.verbatim cs] ts
  | [] => rfl
  | t :: rest => by
    rw [row, separator, if_neg (Nat.lt_irrefl 0), row_behind, intercalate_cons, List.nil_append]

end Template

/-! ### Templates written by a renderer -/

namespace Renderer

/-- What is collected for a name: its value, or null without one. -/
def valueOf (r : Renderer) (name : String) : Value :=
  (r.bindings.lookup name).getD .null

/-- A renderer that has written a template. -/
def after (r : Renderer) (t : Template) : Renderer :=
  { r with
    sql := r.sql ++ String.ofList
      (t.fill r.dialect.quotePath (fun k _ => r.dialect.numbered k) (r.values.length + 1))
    values := r.values ++ t.names.map r.valueOf
    unbound := r.unbound ++ r.bindings.missing t.names }

theorem after_nil (r : Renderer) : r.after [] = r := by
  simp [after, Template.fill, Template.names, Bindings.missing]

/-- **Writing two templates in a row**: the second one goes on with the numbers, the values and the
missing names of the first one. -/
theorem after_append (r : Renderer) (t t' : Template) :
    r.after (t ++ t') = (r.after t).after t' := by
  -- a value is collected for every placeholder, bound or not, so the values count the numbers
  have hnumber : (r.after t).values.length + 1 = r.values.length + 1 + t.names.length := by
    unfold after
    rw [List.length_append, List.length_map]
    omega
  have hmissing : r.bindings.missing (t ++ t').names =
      r.bindings.missing t.names ++ r.bindings.missing t'.names := by
    unfold Bindings.missing
    rw [Template.names_append, List.filter_append]
  have hvalues : (t ++ t').names.map r.valueOf =
      t.names.map r.valueOf ++ t'.names.map r.valueOf := by
    rw [Template.names_append, List.map_append]
  have hsql := Template.fill_append r.dialect.quotePath (fun k _ => r.dialect.numbered k) t t'
    (r.values.length + 1)
  rw [← hnumber] at hsql
  rw [after, hsql, hvalues, hmissing, String.ofList_append, ← String.append_assoc,
    ← List.append_assoc, ← List.append_assoc]
  rfl

theorem push_eq (r : Renderer) (text : String) : r.push text = r.after [.verbatim text.toList] := by
  simp [push, after, Template.fill, Template.names, Piece.name?, Bindings.missing]

theorem pushPath_eq (r : Renderer) (path : String) : r.pushPath path = r.after [.path path] := by
  simp [pushPath, push, after, Template.fill, Template.names, Piece.name?, Bindings.missing]

/-- **A name is collected once**, with its value or as a missing name with null in its place. -/
theorem collect_eq (r : Renderer) (name : String) :
    r.collect name = { r with
      values := r.values ++ [r.valueOf name]
      unbound := r.unbound ++ r.bindings.missing [name] } := by
  unfold collect valueOf Bindings.missing
  cases hvalue : r.bindings.lookup name with
  | some value =>
    have hmem : name ∈ r.bindings.names := by
      by_contra hfree
      rw [Bindings.lookup_eq_none_iff.mpr hfree] at hvalue
      cases hvalue
    simp [hmem]
  | none =>
    have hfree : name ∉ r.bindings.names := Bindings.lookup_eq_none_iff.mp hvalue
    simp [hfree]

theorem addParam_eq (r : Renderer) (name : String) :
    r.addParam name = r.after [.placeholder name] := by
  have hindex : (r.values ++ [r.valueOf name]).length - 1 = r.values.length := by simp
  unfold addParam
  simp only [collect_eq, push]
  rw [hindex, Dialect.placeholder_eq]
  simp [after, Template.fill, Template.names, Piece.name?]

theorem separate_eq (r : Renderer) (cs : List Char) (index : Nat) :
    r.separate (String.ofList cs) index = r.after (Template.separator cs index) := by
  unfold separate Template.separator
  split_ifs
  · rw [push_eq, String.toList_ofList]
  · exact r.after_nil.symm

theorem addParams_eq : ∀ (names : List String) (r : Renderer) (index : Nat),
    r.addParams index names =
      r.after (Template.row [',', ' '] index (names.map fun name => [.placeholder name]))
  | [], r, _ => r.after_nil.symm
  | name :: rest, r, index => by
    have hseparate : r.separate ", " index = r.after (Template.separator [',', ' '] index) :=
      r.separate_eq [',', ' '] index
    rw [addParams, hseparate, addParam_eq, addParams_eq rest, ← after_append, ← after_append,
      List.map_cons, Template.row, List.append_assoc]

end Renderer

/-! ### Filters written by a renderer -/

open Renderer

theorem Operand.render_eq (r : Renderer) : ∀ o : Operand String, o.render r = r.after o.template
  | .none => r.after_nil.symm
  | .blank => r.push_eq " ''"
  | .single name => by
    rw [render, push_eq, addParam_eq, ← after_append]
    rfl
  | .list names => by
    rw [render, push_eq, addParams_eq, Template.row_zero, push_eq, ← after_append,
      ← after_append]
    rfl
  | .range low high => by
    rw [render, push_eq, addParam_eq, push_eq, addParam_eq, ← after_append, ← after_append,
      ← after_append]
    rfl

theorem Predicate.render_eq (r : Renderer) (p : Predicate String) :
    p.render r = r.after p.template := by
  unfold render
  rw [p.operand.render_eq, pushPath_eq, push_eq, push_eq, ← after_append, ← after_append,
    ← after_append]
  rfl

namespace Filter

/-- Writes a part of a group. -/
theorem render_part {part : Filter String} (h : ∀ r, part.render r = r.after part.template)
    (r : Renderer) :
    (if part.isGroup then (part.render (r.push "(")).push ")" else part.render r) =
      r.after part.partTemplate := by
  unfold partTemplate
  split_ifs
  · rw [push_eq, h, push_eq, ← after_append, ← after_append]
    rfl
  · exact h r

theorem renderParts_eq (joiner : List Char) : ∀ (parts : List (Filter String)),
    (∀ part ∈ parts, ∀ r, part.render r = r.after part.template) → ∀ (r : Renderer) (index : Nat),
      renderParts (String.ofList joiner) r index parts =
        r.after (Template.row joiner index (parts.map partTemplate))
  | [], _, r, _ => r.after_nil.symm
  | part :: rest, h, r, index => by
    obtain ⟨hpart, hrest⟩ := List.forall_mem_cons.mp h
    rw [renderParts, render_part hpart, separate_eq, renderParts_eq joiner rest hrest,
      ← after_append, ← after_append, List.map_cons, Template.row, List.append_assoc]

/-- The joiner of the renderer is the one of the text. -/
theorem render_group (c : Connective) (r : Renderer) (parts : List (Filter String)) :
    (group c parts).render r = renderParts (String.ofList c.separator) r 0 parts := by
  cases c with
  | and => rw [render]; rfl
  | or => rw [render]; rfl

/-- **A renderer writes the template of a filter.** -/
theorem render_eq (f : Filter String) : ∀ r : Renderer, f.render r = r.after f.template := by
  induction f with
  | leaf p => exact fun r => by rw [render, p.render_eq, template]
  | group c parts ih =>
    intro r
    rw [render_group, renderParts_eq c.separator parts ih, Template.row_zero, template_group]

/-- The statement of a filter for a database: the template with quoted paths and numbered
placeholders. -/
def statement (d : Dialect) (f : Filter String) : String :=
  String.ofList (f.template.fill d.quotePath (fun number _ => d.numbered number) 1)

end Filter

/-! ### Rendered queries -/

namespace Bindings

theorem missing_eq_nil_iff {bindings : Bindings} {names : List String} :
    bindings.missing names = [] ↔ ∀ name ∈ names, name ∈ bindings.names := by
  unfold missing
  rw [List.filter_eq_nil_iff]
  simp

/-- The first missing name has none in front of it. -/
theorem missing_eq_cons_iff {bindings : Bindings} {names : List String} {name : String} :
    (∃ others, bindings.missing names = name :: others) ↔
      ∃ before after, names = before ++ name :: after ∧
        (∀ n ∈ before, n ∈ bindings.names) ∧ name ∉ bindings.names := by
  unfold missing
  simp only [List.filter_eq_cons_iff, decide_eq_true_iff, not_not]
  constructor
  · rintro ⟨_, before, after, hnames, hbefore, hname, -⟩
    exact ⟨before, after, hnames, hbefore, hname⟩
  · rintro ⟨before, after, hnames, hbefore, hname⟩
    exact ⟨_, before, after, hnames, hbefore, hname, rfl⟩

end Bindings

namespace Query

/-- **A rendered filter**: its statement with a value for every reference, or the first missing
one. -/
theorem render_some (f : Filter String) (bindings : Bindings) (d : Dialect) :
    render ⟨some f, bindings⟩ d =
      match bindings.missing f.references with
      | [] => .ok (f.statement d,
          f.references.map fun name => (bindings.lookup name).getD .null)
      | name :: _ => .error (.unbound name) := by
  unfold render
  simp only [Filter.render_eq]
  unfold Renderer.finish after fresh Filter.statement
  simp only [f.names_template, List.nil_append, String.empty_append, List.length_nil, Nat.zero_add]
  rfl

theorem render_eq_ok_iff {f : Filter String} {bindings : Bindings} {d : Dialect} {sql : String}
    {values : List Value} : render ⟨some f, bindings⟩ d = .ok (sql, values) ↔
      (∀ name ∈ f.references, name ∈ bindings.names) ∧ sql = f.statement d ∧
        values = f.references.map fun name => (bindings.lookup name).getD .null := by
  rw [render_some, ← Bindings.missing_eq_nil_iff]
  cases bindings.missing f.references with
  | nil => simp [eq_comm]
  | cons name others => simp

theorem render_eq_error_iff {f : Filter String} {bindings : Bindings} {d : Dialect}
    {name : String} : render ⟨some f, bindings⟩ d = .error (.unbound name) ↔
      ∃ before after, f.references = before ++ name :: after ∧
        (∀ n ∈ before, n ∈ bindings.names) ∧ name ∉ bindings.names := by
  rw [render_some, ← Bindings.missing_eq_cons_iff]
  cases bindings.missing f.references with
  | nil => simp
  | cons first others => simp

/-- **A query with values for all of its placeholders can be rendered.** -/
theorem render_of_bound {q : Query} (h : q.Bound) (d : Dialect) :
    ∃ answer, q.render d = .ok answer := by
  obtain ⟨filter, bindings⟩ := q
  cases filter with
  | none => exact ⟨("", []), rfl⟩
  | some f => exact ⟨_, render_eq_ok_iff.mpr ⟨bound_iff.mp h, rfl, rfl⟩⟩

/-- The text of a prepared statement, or the first placeholder without a value, is settled by the
filter and the names that are bound. -/
theorem render_congr {q q' : Query} (hfilter : q.filter = q'.filter)
    (hnames : q.bindings.names = q'.bindings.names) (d : Dialect) :
    (q.render d).map Prod.fst = (q'.render d).map Prod.fst := by
  obtain ⟨filter, bindings⟩ := q
  obtain ⟨filter', bindings'⟩ := q'
  obtain rfl : filter = filter' := hfilter
  cases filter with
  | none => rfl
  | some f =>
    have hmissing : bindings.missing f.references = bindings'.missing f.references := by
      unfold Bindings.missing
      rw [show bindings.names = bindings'.names from hnames]
    rw [render_some, render_some, hmissing]
    cases bindings'.missing f.references with
    | nil => rfl
    | cons name others => rfl

/-- **The named and the numbered text agree.** A filter can be rendered exactly if all its
references have values, and the first one without a value is reported otherwise. The values of a
rendered filter are those of its references, one for each of them. Its statement is the template
whose places are the paths and the references of the filter, with quoted paths and numbered
placeholders; with bare paths and named placeholders the same template is the text of the filter. -/
theorem render_agrees_with_text (f : Filter String) (bindings : Bindings) (d : Dialect) :
    ((∃ answer, render ⟨some f, bindings⟩ d = .ok answer) ↔
      ∀ name ∈ f.references, name ∈ bindings.names) ∧
    (∀ name, render ⟨some f, bindings⟩ d = .error (.unbound name) ↔
      ∃ before after, f.references = before ++ name :: after ∧
        (∀ n ∈ before, n ∈ bindings.names) ∧ name ∉ bindings.names) ∧
    (∀ sql values, render ⟨some f, bindings⟩ d = .ok (sql, values) →
      values.map some = f.references.map (fun name => bindings.lookup name) ∧
      sql = String.ofList (f.template.fill d.quotePath (fun number _ => d.numbered number) 1)) ∧
    f.text = String.ofList (f.template.fill String.toList (fun _ name => ':' :: name.toList) 1) ∧
    f.template.paths = f.predicates.map Predicate.field ∧
    f.template.names = f.references := by
  refine ⟨⟨?bound, ?rendered⟩, fun _ => render_eq_error_iff, ?answer, ?text, f.paths_template,
    f.names_template⟩
  case bound =>
    rintro ⟨⟨sql, values⟩, hanswer⟩
    exact (render_eq_ok_iff.mp hanswer).1
  case rendered =>
    intro hbound
    exact ⟨_, render_eq_ok_iff.mpr ⟨hbound, rfl, rfl⟩⟩
  case answer =>
    intro sql values hanswer
    obtain ⟨hbound, hsql, hvalues⟩ := render_eq_ok_iff.mp hanswer
    refine ⟨?_, hsql⟩
    rw [hvalues, List.map_map]
    refine List.map_congr_left fun name hname => ?_
    obtain ⟨value, hvalue⟩ := exists_value?_iff (q := ⟨some f, bindings⟩).mpr (hbound name hname)
    have hvalue : bindings.lookup name = some value := hvalue
    rw [Function.comp_apply, hvalue, Option.getD_some]
  case text =>
    unfold Filter.text
    rw [f.write_eq_named]
    exact congrArg String.ofList (Template.fill_unnumbered _ _ _ _).symm

example : render ⟨some (.group .or [.leaf ⟨"t.a", .equal, .single "p"⟩,
      .group .and [.leaf ⟨"b", .isIn, .list ["q", "p"]⟩]]), [("q", .null), ("p", .int 1)]⟩
    .postgres = .ok ("\"t\".\"a\" = $1 OR (\"b\" IN ($2, $3))", [.int 1, .null, .int 1]) := by
  rfl

end Query

end RuleFilter
