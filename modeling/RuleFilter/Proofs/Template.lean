import RuleFilter.Proofs.Clause.Spelling

/-! # Templates

What the texts of a filter have in common is its template: the paths and the placeholders are places
in it, and all the rest stands as it is. The places are those of the comparisons, in their order
(`paths_template`, `names_template`), and the text with named placeholders is the template with
every place filled by its own name (`write_eq_named`). -/

namespace RuleFilter

/-- A piece of a template: characters that stand as they are, the place of a path, or the place of a
placeholder. -/
inductive Piece where
  | verbatim (cs : List Char)
  | path (field : String)
  | placeholder (name : String)

namespace Piece

/-- The path whose place this is. -/
def path? : Piece → Option String
  | .path field => some field
  | .verbatim _ | .placeholder _ => none

/-- The name of the placeholder whose place this is. -/
def name? : Piece → Option String
  | .placeholder name => some name
  | .verbatim _ | .path _ => none

/-- The text of a piece. -/
def write (path placeholder : String → List Char) : Piece → List Char
  | .verbatim cs => cs
  | .path field => path field
  | .placeholder name => placeholder name

end Piece

/-- A text with places for paths and placeholders. -/
abbrev Template := List Piece

/-! ### Filling in -/

namespace Template

/-- The paths, from left to right. -/
def paths (t : Template) : List String :=
  t.filterMap Piece.path?

/-- The names of the placeholders, from left to right. -/
def names (t : Template) : List String :=
  t.filterMap Piece.name?

/-- The text of a template whose first placeholder has the number `k`. A placeholder may be written
by its number and its name. -/
def fill (path : String → List Char) (placeholder : Nat → String → List Char) (k : Nat) :
    Template → List Char
  | [] => []
  | .verbatim cs :: rest => cs ++ fill path placeholder k rest
  | .path field :: rest => path field ++ fill path placeholder k rest
  | .placeholder name :: rest => placeholder k name ++ fill path placeholder (k + 1) rest

@[simp]
theorem names_placeholder (name : String) (t : Template) :
    names (.placeholder name :: t) = name :: names t := rfl

@[simp]
theorem names_append (t t' : Template) : names (t ++ t') = t.names ++ t'.names :=
  List.filterMap_append

variable (path : String → List Char)

/-- Behind a template the numbers have moved on by its placeholders. -/
theorem fill_append (placeholder : Nat → String → List Char) :
    ∀ (t t' : Template) (k : Nat), fill path placeholder k (t ++ t') =
      fill path placeholder k t ++ fill path placeholder (k + t.names.length) t'
  | [], _, _ => rfl
  | .verbatim cs :: rest, t', k => by
    have ih := fill_append placeholder rest t' k
    rw [List.cons_append, fill, fill, ih, List.append_assoc]
    rfl
  | .path field :: rest, t', k => by
    have ih := fill_append placeholder rest t' k
    rw [List.cons_append, fill, fill, ih, List.append_assoc]
    rfl
  | .placeholder name :: rest, t', k => by
    have ih := fill_append placeholder rest t' (k + 1)
    have hnumber : k + (names (.placeholder name :: rest)).length =
        k + 1 + (names rest).length := by
      rw [names_placeholder, List.length_cons]
      omega
    rw [List.cons_append, fill, fill, ih, List.append_assoc, hnumber]

/-- Without numbers every piece is written by itself. -/
theorem fill_unnumbered (placeholder : String → List Char) : ∀ (t : Template) (k : Nat),
    fill path (fun _ => placeholder) k t = t.flatMap (Piece.write path placeholder)
  | [], _ => rfl
  | .verbatim _ :: rest, k => by
    rw [fill, fill_unnumbered placeholder rest, List.flatMap_cons, Piece.write]
  | .path _ :: rest, k => by
    rw [fill, fill_unnumbered placeholder rest, List.flatMap_cons, Piece.write]
  | .placeholder _ :: rest, k => by
    rw [fill, fill_unnumbered placeholder rest, List.flatMap_cons, Piece.write]

/-- There is no place in a separator. -/
theorem filterMap_intercalate {g : Piece → Option String} {cs : List Char}
    (hg : g (.verbatim cs) = none) : ∀ ts : List Template,
    (List.intercalate [.verbatim cs] ts).filterMap g = ts.flatMap (List.filterMap g)
  | [] => rfl
  | first :: rest => by
    have hbehind : ∀ t : Template, List.filterMap g ([Piece.verbatim cs] ++ t) =
        List.filterMap g t := fun t => by
      rw [List.singleton_append, List.filterMap_cons_none hg]
    rw [intercalate_cons, List.filterMap_append, List.filterMap_flatMap, List.flatMap_cons]
    simp only [hbehind]

/-- A separator is written between the texts. -/
theorem flatMap_write_intercalate (placeholder : String → List Char) (cs : List Char) :
    ∀ ts : List Template,
      (List.intercalate [.verbatim cs] ts).flatMap (Piece.write path placeholder) =
        List.intercalate cs (ts.map (List.flatMap (Piece.write path placeholder)))
  | [] => rfl
  | first :: rest => by
    rw [intercalate_cons, List.flatMap_append, List.flatMap_assoc, List.map_cons,
      intercalate_cons, List.flatMap_map]
    rfl

end Template

/-! ### The template of a filter -/

/-- The template of a right-hand side. -/
def Operand.template : Operand String → Template
  | .none => []
  | .blank => [.verbatim [' ', '\'', '\'']]
  | .single name => [.verbatim [' '], .placeholder name]
  | .list names =>
    .verbatim [' ', '('] ::
      List.intercalate [.verbatim [',', ' ']] (names.map fun name => [.placeholder name]) ++
        [.verbatim [')']]
  | .range low high =>
    [.verbatim [' '], .placeholder low, .verbatim " AND ".toList, .placeholder high]

/-- The template of a comparison. -/
def Predicate.template (p : Predicate String) : Template :=
  .path p.field :: .verbatim [' '] :: .verbatim p.comparison.sql.toList :: p.operand.template

namespace Filter

mutual

/-- The template of a filter. -/
def template : Filter String → Template
  | .leaf p => p.template
  | .group c parts => List.intercalate [.verbatim c.separator] (templatesOfParts parts)

/-- The templates of the parts of a group. -/
def templatesOfParts : List (Filter String) → List Template
  | [] => []
  | part :: rest =>
    (if part.isGroup then .verbatim ['('] :: part.template ++ [.verbatim [')']]
      else part.template) :: templatesOfParts rest

end

/-- The template of a part of a group. -/
def partTemplate (f : Filter String) : Template :=
  if f.isGroup then .verbatim ['('] :: f.template ++ [.verbatim [')']] else f.template

theorem templatesOfParts_eq (parts : List (Filter String)) :
    templatesOfParts parts = parts.map partTemplate := by
  induction parts with
  | nil => rfl
  | cons part rest ih => rw [templatesOfParts, ih, List.map_cons, partTemplate]

theorem template_group (c : Connective) (parts : List (Filter String)) :
    (group c parts).template =
      List.intercalate [.verbatim c.separator] (parts.map partTemplate) := by
  rw [template, templatesOfParts_eq]

end Filter

/-! ### Its places -/

section Places

variable {g : Piece → Option String} (hg : ∀ cs, g (.verbatim cs) = Option.none)

include hg

theorem Operand.filterMap_template : ∀ o : Operand String,
    o.template.filterMap g = o.toList.filterMap fun name => g (.placeholder name)
  | .none => rfl
  | .blank | .single _ => List.filterMap_cons_none (hg _)
  | .list names => by
    have hlist : List.filterMap g (List.intercalate [.verbatim [',', ' ']]
        (names.map fun name => [Piece.placeholder name])) =
          names.filterMap fun name => g (.placeholder name) := by
      rw [Template.filterMap_intercalate (hg _), List.flatMap_map, List.filterMap_eq_flatMap_toList]
      exact List.flatMap_congr fun name _ => by cases hname : g (.placeholder name) <;> simp [hname]
    rw [template, List.filterMap_append, List.filterMap_cons_none (hg _), hlist,
      List.filterMap_cons_none (hg _)]
    exact List.append_nil _
  | .range low high => by simp [template, toList, List.filterMap_cons, hg]

theorem Predicate.filterMap_template (p : Predicate String) :
    p.template.filterMap g = (g (.path p.field)).toList ++
      p.operand.toList.filterMap fun name => g (.placeholder name) := by
  have hoperand := p.operand.filterMap_template hg
  unfold template
  rw [List.filterMap_cons]
  cases g (.path p.field) <;> simp [hg, hoperand]

namespace Filter

/-- Brackets have no place in them. -/
theorem filterMap_partTemplate (f : Filter String) :
    f.partTemplate.filterMap g = f.template.filterMap g := by
  unfold partTemplate
  split_ifs
  · rw [List.cons_append, List.filterMap_cons_none (hg _), List.filterMap_append,
      List.filterMap_cons_none (hg _), List.filterMap_nil, List.append_nil]
  · rfl

/-- **The places of a template are those of the comparisons**, from left to right. -/
theorem filterMap_template (f : Filter String) :
    f.template.filterMap g = f.predicates.flatMap fun p => p.template.filterMap g := by
  induction f with
  | leaf p => exact (List.append_nil _).symm
  | group c parts ih =>
    rw [template_group, Template.filterMap_intercalate (hg _), List.flatMap_map,
      predicates_group, List.flatMap_assoc]
    exact List.flatMap_congr fun part hmem =>
      (filterMap_partTemplate hg part).trans (ih part hmem)

end Filter

end Places

namespace Filter

theorem names_template (f : Filter String) : f.template.names = f.references := by
  have hleaf (p : Predicate String) : p.template.names = p.operand.toList := by
    unfold Template.names
    rw [p.filterMap_template fun _ => rfl]
    exact List.filterMap_some
  unfold Template.names references
  rw [filterMap_template fun _ => rfl]
  exact List.flatMap_congr fun p _ => hleaf p

theorem paths_template (f : Filter String) :
    f.template.paths = f.predicates.map Predicate.field := by
  have hleaf (p : Predicate String) : p.template.paths = [p.field] := by
    unfold Template.paths
    rw [p.filterMap_template fun _ => rfl]
    simp [Piece.path?]
  unfold Template.paths
  rw [filterMap_template fun _ => rfl, List.map_eq_flatMap]
  exact List.flatMap_congr fun p _ => hleaf p

end Filter

/-! ### The text with named placeholders -/

/-- A template with every place filled by its own name. -/
def Template.named (t : Template) : List Char :=
  t.flatMap (Piece.write String.toList namedPlaceholder)

theorem Operand.write_eq_named : ∀ o : Operand String, o.write = o.template.named
  | .none | .blank => rfl
  | .single name => by simp [write, template, Template.named, Piece.write]
  | .list names => by
    have hlist : Template.named (List.intercalate [.verbatim [',', ' ']]
        (names.map fun name => [Piece.placeholder name])) =
          List.intercalate [',', ' '] (names.map namedPlaceholder) := by
      unfold Template.named
      rw [Template.flatMap_write_intercalate, List.map_map]
      simp [Function.comp_def, Piece.write]
    unfold Template.named at hlist ⊢
    rw [write, template, List.flatMap_append, List.flatMap_cons, hlist]
    rfl
  | .range low high => by simp [write, template, Template.named, Piece.write]

theorem Predicate.write_eq_named (p : Predicate String) : p.write = p.template.named := by
  unfold write
  rw [p.operand.write_eq_named, List.append_assoc]
  rfl

namespace Filter

theorem writePart_eq_named {f : Filter String} (h : f.write = f.template.named) :
    f.writePart = f.partTemplate.named := by
  unfold writePart partTemplate
  split_ifs
  · unfold bracketed Template.named
    rw [h, List.flatMap_append, List.flatMap_cons]
    rfl
  · exact h

/-- **The text of a filter is its template with every place filled by its own name.** -/
theorem write_eq_named (f : Filter String) : f.write = f.template.named := by
  induction f with
  | leaf p => exact p.write_eq_named
  | group c parts ih =>
    have hparts : parts.map writePart = parts.map fun part => part.partTemplate.named :=
      List.map_congr_left fun part hmem => writePart_eq_named (ih part hmem)
    rw [write, writeParts_eq, hparts, template_group]
    unfold Template.named
    rw [Template.flatMap_write_intercalate, List.map_map]
    rfl

end Filter

end RuleFilter
