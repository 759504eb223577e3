import RuleFilter.Proofs.Authorised
import RuleFilter.Proofs.Clause.Comparing
import RuleFilter.Proofs.Outline
import RuleFilter.Proofs.Quoting

/-! # Statements are unambiguous

A filter whose groups have two parts at least and whose right-hand sides suit their comparisons is
known from its statement for a database, up to the names of its placeholders, whatever its fields
are (`Filter.outline_of_statement`). Read from left to right, each piece of the statement is over
where it is over, and what stands behind it cannot belong to it: a quoted path ends in front of a
blank, a comparison in front of a blank or a bracket, and a group only in front of a bracket. -/

namespace RuleFilter

/-- The text of a template for a database. Its first placeholder has the number `k`. -/
def Template.positional (d : Dialect) (k : Nat) (t : Template) : List Char :=
  t.fill d.quotePath (fun number _ => d.numbered number) k

theorem Template.positional_append (d : Dialect) (k : Nat) (t t' : Template) :
    positional d k (t ++ t') = positional d k t ++ positional d (k + t.names.length) t' :=
  fill_append _ _ t t' k

/-! ### What stands behind a piece -/

/-- What may stand behind a part of a group. -/
def BehindPart (rest : List Char) : Prop :=
  ∀ c ∈ rest.head?, c = ' ' ∨ c = ')'

/-- What may stand behind a group. -/
def BehindGroup (rest : List Char) : Prop :=
  ∀ c ∈ rest.head?, c = ')'

theorem behindPart_cons {c : Char} (h : c = ' ' ∨ c = ')') (rest : List Char) :
    BehindPart (c :: rest) :=
  fun c' hc' => by cases hc'; exact h

theorem behindGroup_nil : BehindGroup [] :=
  fun c hc => by cases hc

theorem BehindGroup.behindPart {rest : List Char} (h : BehindGroup rest) : BehindPart rest :=
  fun c hc => Or.inr (h c hc)

theorem behindGroup_bracket (rest : List Char) : BehindGroup (')' :: rest) :=
  fun c hc => by cases hc; rfl

theorem Dialect.ends_blank (d : Dialect) (rest : List Char) : d.Ends (' ' :: rest) := by
  intro c hc
  cases hc
  cases d <;> decide

/-! ### Operators -/

namespace Comparison

/-- An operator is the beginning of another one only for want of an equals sign. -/
theorem eq_or_of_prefix_sql {c c' : Comparison} (h : c.sql.toList <+: c'.sql.toList) :
    c = c' ∨ c'.sql.toList = c.sql.toList ++ ['='] := by
  have hall : ∀ a ∈ all, ∀ a' ∈ all, a.sql.toList <+: a'.sql.toList →
      a = a' ∨ a'.sql.toList = a.sql.toList ++ ['='] := by
    decide +kernel
  exact hall c c.mem_all c' c'.mem_all h

theorem eq_of_prefix_sql {c c' : Comparison} {rest rest' : List Char} (hrest : BehindPart rest)
    (h : c.sql.toList ++ rest = c'.sql.toList ++ rest')
    (hbegins : c.sql.toList <+: c'.sql.toList) : c = c' := by
  rcases eq_or_of_prefix_sql hbegins with heq | hsign
  · exact heq
  · rw [hsign, List.append_assoc, List.append_cancel_left_eq] at h
    rcases hrest '=' (by rw [h]; rfl) with hc | hc <;> cases hc

/-- **An operator ends in front of a blank or a bracket.** -/
theorem eq_of_sql_append {c c' : Comparison} {rest rest' : List Char} (hrest : BehindPart rest)
    (hrest' : BehindPart rest') (h : c.sql.toList ++ rest = c'.sql.toList ++ rest') :
    c = c' ∧ rest = rest' := by
  have hc : c = c' := by
    have hor : c.sql.toList <+: c'.sql.toList ∨ c'.sql.toList <+: c.sql.toList :=
      List.prefix_or_prefix_of_prefix (List.prefix_append _ rest) (h ▸ List.prefix_append _ rest')
    rcases hor with hbegins | hbegins
    · exact eq_of_prefix_sql hrest h hbegins
    · exact (eq_of_prefix_sql hrest' h.symm hbegins).symm
  subst hc
  exact ⟨rfl, List.append_cancel_left h⟩

end Comparison

theorem Connective.eq_of_separator_append {c c' : Connective} {rest rest' : List Char}
    (h : c.separator ++ rest = c'.separator ++ rest') : c = c' ∧ rest = rest' := by
  cases c <;> cases c' <;> simp_all [separator, keyword]

/-! ### Right-hand sides -/

namespace Operand

section Suits

variable {α : Type} {c : Comparison} {o : Operand α}

/-- Only a range suits an operator of ranges. -/
theorem exists_range_of_suits (hc : c.isRange) (ho : o.suits c) :
    ∃ low high, o = .range low high := by
  have hcases : c = .between ∨ c = .notBetween := by
    cases c <;> simp_all [Comparison.isRange]
  rcases hcases with rfl | rfl <;> cases o <;> first | exact ⟨_, _, rfl⟩ | cases ho

/-- Only a list that is not empty suits an operator of lists. -/
theorem exists_list_of_suits (hc : c.takesSeveral) (hrange : c.isRange = false) (ho : o.suits c) :
    ∃ a as, o = .list (a :: as) := by
  have hcases : c = .isIn ∨ c = .notIn := by
    cases c <;> simp_all [Comparison.takesSeveral, Comparison.isRange]
  have hlist : ∃ as : List α, o = .list as ∧ as ≠ [] := by
    rcases hcases with rfl | rfl <;> cases o <;>
      first | cases ho | exact ⟨_, rfl, by rintro rfl; cases ho⟩
  obtain ⟨as, rfl, hne⟩ := hlist
  obtain ⟨a, as, rfl⟩ := List.exists_cons_of_ne_nil hne
  exact ⟨a, as, rfl⟩

/-- The blank text or a single reference suits any other operator with a right-hand side. -/
theorem blank_or_single_of_suits (hnull : c.isNullCheck = false) (hc : c.takesSeveral = false)
    (ho : o.suits c) : o = .blank ∨ ∃ a, o = .single a := by
  have hrange : c.isRange = false := by
    cases c <;> simp_all [Comparison.takesSeveral, Comparison.isRange]
  cases o with
  | blank => exact Or.inl rfl
  | single a => exact Or.inr ⟨a, rfl⟩
  | _ => simp [suits, hnull, hc, hrange] at ho

end Suits

variable {d : Dialect} {k : Nat} {rest rest' : List Char}

/-- A placeholder is no literal. -/
theorem numbered_append_ne (d : Dialect) (k : Nat) (rest rest' : List Char) :
    d.numbered k ++ rest ≠ '\'' :: rest' := by
  cases d <;> simp [Dialect.numbered]

/-- The names of a list behind its first one. -/
def furtherTemplate (names : List String) : Template :=
  names.flatMap fun name => [.verbatim [',', ' '], .placeholder name]

theorem positional_furtherTemplate_cons (d : Dialect) (k : Nat) (name : String)
    (names : List String) : (furtherTemplate (name :: names)).positional d k =
      ',' :: ' ' :: d.numbered k ++ (furtherTemplate names).positional d (k + 1) := rfl

theorem positional_list_append (d : Dialect) (k : Nat) (name : String) (names : List String)
    (rest : List Char) : (list (name :: names)).template.positional d k ++ rest =
      ' ' :: '(' :: d.numbered k ++
        ((furtherTemplate names).positional d (k + 1) ++ ')' :: rest) := by
  have htemplate : (list (name :: names)).template =
      [.verbatim [' ', '('], .placeholder name] ++
        (furtherTemplate names ++ [.verbatim [')']]) := by
    rw [template, List.map_cons, intercalate_cons, List.flatMap_map]
    rfl
  rw [htemplate, Template.positional_append, Template.positional_append]
  simp [Template.positional, Template.fill, Template.names, Piece.name?, List.filterMap_cons]

theorem positional_single_append (d : Dialect) (k : Nat) (name : String) (rest : List Char) :
    (single name).template.positional d k ++ rest = ' ' :: d.numbered k ++ rest := by
  simp [template, Template.positional, Template.fill]

/-- A list is over with the closing bracket. -/
theorem eq_of_furtherTemplate_append : ∀ (names names' : List String) (k : Nat),
    (furtherTemplate names).positional d k ++ ')' :: rest =
        (furtherTemplate names').positional d k ++ ')' :: rest' →
      names.map (fun _ => ()) = names'.map (fun _ => ()) ∧ rest = rest'
  | [], [], _, h => ⟨rfl, (List.cons.inj h).2⟩
  | [], _ :: _, k, h => by
    rw [positional_furtherTemplate_cons] at h
    cases h
  | _ :: _, [], k, h => by
    rw [positional_furtherTemplate_cons] at h
    cases h
  | name :: names, name' :: names', k, h => by
    rw [positional_furtherTemplate_cons, positional_furtherTemplate_cons, List.append_assoc,
      List.append_assoc, List.append_cancel_left_eq] at h
    obtain ⟨hnames, hrest⟩ := eq_of_furtherTemplate_append names names' (k + 1) h
    exact ⟨congrArg (() :: ·) hnames, hrest⟩

/-- **A right-hand side is over where it is over**, if it suits its operator. -/
theorem eq_of_positional_append {c : Comparison} {o o' : Operand String} (ho : o.suits c)
    (ho' : o'.suits c)
    (h : o.template.positional d k ++ rest = o'.template.positional d k ++ rest') :
    o.map (fun _ => ()) = o'.map (fun _ => ()) ∧ rest = rest' := by
  by_cases hnull : c.isNullCheck
  · rw [eq_none_of_suits_of_isNullCheck hnull ho, eq_none_of_suits_of_isNullCheck hnull ho'] at h ⊢
    exact ⟨rfl, h⟩
  by_cases hrange : c.isRange
  · obtain ⟨low, high, rfl⟩ := exists_range_of_suits hrange ho
    obtain ⟨low', high', rfl⟩ := exists_range_of_suits hrange ho'
    exact ⟨rfl, List.append_cancel_left h⟩
  by_cases hseveral : c.takesSeveral
  · obtain ⟨name, names, rfl⟩ := exists_list_of_suits hseveral (by simpa using hrange) ho
    obtain ⟨name', names', rfl⟩ := exists_list_of_suits hseveral (by simpa using hrange) ho'
    rw [positional_list_append, positional_list_append, List.append_cancel_left_eq] at h
    obtain ⟨hnames, hrest⟩ := eq_of_furtherTemplate_append names names' (k + 1) h
    exact ⟨congrArg (fun units => list (() :: units)) hnames, hrest⟩
  have hnull : c.isNullCheck = false := by simpa using hnull
  have hseveral : c.takesSeveral = false := by simpa using hseveral
  rcases blank_or_single_of_suits hnull hseveral ho with rfl | ⟨a, rfl⟩ <;>
    rcases blank_or_single_of_suits hnull hseveral ho' with rfl | ⟨a', rfl⟩
  · exact ⟨rfl, List.append_cancel_left h⟩
  · rw [positional_single_append] at h
    exact absurd (List.cons.inj h).2.symm (numbered_append_ne d k _ _)
  · rw [positional_single_append] at h
    exact absurd (List.cons.inj h).2 (numbered_append_ne d k _ _)
  · exact ⟨rfl, List.append_cancel_left h⟩

theorem behindPart_positional (o : Operand String) (hrest : BehindPart rest) :
    BehindPart (o.template.positional d k ++ rest) := by
  cases o with
  | none => exact hrest
  | _ => exact behindPart_cons (Or.inl rfl) _

end Operand

/-! ### Comparisons -/

section Pieces

variable {d : Dialect} {k : Nat} {rest rest' : List Char}

theorem Predicate.positional_append (d : Dialect) (k : Nat) (p : Predicate String)
    (rest : List Char) : p.template.positional d k ++ rest =
      d.quotePath p.field ++
        ' ' :: (p.comparison.sql.toList ++ (p.operand.template.positional d k ++ rest)) := by
  simp [template, Template.positional, Template.fill]

/-- **A comparison is over where it is over**, whatever its field is. -/
theorem Predicate.eq_of_positional_append {p q : Predicate String}
    (hp : p.operand.suits p.comparison) (hq : q.operand.suits q.comparison)
    (hrest : BehindPart rest) (hrest' : BehindPart rest')
    (h : p.template.positional d k ++ rest = q.template.positional d k ++ rest') :
    p.map (fun _ => ()) = q.map (fun _ => ()) ∧ rest = rest' := by
  rw [positional_append, positional_append] at h
  obtain ⟨hfield, h⟩ := Dialect.eq_of_quotePath_append (d.ends_blank _) (d.ends_blank _) h
  obtain ⟨hcomparison, h⟩ := Comparison.eq_of_sql_append
    (p.operand.behindPart_positional hrest) (q.operand.behindPart_positional hrest')
    (List.cons.inj h).2
  rw [← hcomparison] at hq
  obtain ⟨hoperand, h⟩ := Operand.eq_of_positional_append hp hq h
  refine ⟨?_, h⟩
  unfold map
  rw [hfield, hcomparison, hoperand]

/-! ### Filters -/

namespace Filter

/-- Every group has two parts at least, and every right-hand side suits its operator. The fields may
be any texts. -/
structure Legible (f : Filter String) : Prop where
  folded : f.Folded
  suited : ∀ p ∈ f.predicates, p.operand.suits p.comparison

theorem legible_group_iff {c : Connective} {parts : List (Filter String)} :
    (group c parts).Legible ↔ 2 ≤ parts.length ∧ ∀ part ∈ parts, part.Legible := by
  constructor
  · intro h
    obtain ⟨htwo, hinside⟩ := folded_group_iff.mp h.folded
    refine ⟨htwo, fun part hpart => ⟨hinside part hpart, fun p hp => h.suited p ?_⟩⟩
    rw [predicates_group]
    exact List.mem_flatMap.mpr ⟨part, hpart, hp⟩
  · rintro ⟨htwo, hparts⟩
    refine ⟨.group htwo fun part hpart => (hparts part hpart).folded, fun p hp => ?_⟩
    rw [predicates_group] at hp
    obtain ⟨part, hpart, hp⟩ := List.mem_flatMap.mp hp
    exact (hparts part hpart).suited p hp

/-- The parts of a group behind its first one. -/
def furtherTemplate (c : Connective) (parts : List (Filter String)) : Template :=
  parts.flatMap fun part => .verbatim c.separator :: part.partTemplate

theorem names_partTemplate (f : Filter String) : f.partTemplate.names = f.references := by
  rw [← f.names_template]
  exact filterMap_partTemplate (fun _ => rfl) f

theorem positional_furtherTemplate_cons (d : Dialect) (k : Nat) (c : Connective)
    (part : Filter String) (parts : List (Filter String)) (rest : List Char) :
    (furtherTemplate c (part :: parts)).positional d k ++ rest =
      c.separator ++ (part.partTemplate.positional d k ++
        ((furtherTemplate c parts).positional d (k + part.references.length) ++ rest)) := by
  have htemplate : furtherTemplate c (part :: parts) =
      .verbatim c.separator :: (part.partTemplate ++ furtherTemplate c parts) := rfl
  rw [htemplate, Template.positional, Template.fill, List.append_assoc, ← names_partTemplate,
    ← List.append_assoc (part.partTemplate.positional d k), ← Template.positional_append]
  rfl

theorem positional_group (d : Dialect) (k : Nat) (c : Connective) (first : Filter String)
    (parts : List (Filter String)) (rest : List Char) :
    (group c (first :: parts)).template.positional d k ++ rest =
      first.partTemplate.positional d k ++
        ((furtherTemplate c parts).positional d (k + first.references.length) ++ rest) := by
  have htemplate : (group c (first :: parts)).template =
      first.partTemplate ++ furtherTemplate c parts := by
    rw [template_group, List.map_cons, intercalate_cons, List.flatMap_map]
    rfl
  rw [htemplate, Template.positional_append, List.append_assoc, names_partTemplate]

/-- A group inside another one is in brackets. -/
theorem positional_part_group (d : Dialect) (k : Nat) (c : Connective)
    (parts : List (Filter String)) (rest : List Char) :
    (group c parts).partTemplate.positional d k ++ rest =
      '(' :: ((group c parts).template.positional d k ++ ')' :: rest) := by
  have htemplate : (group c parts).partTemplate =
      .verbatim ['('] :: ((group c parts).template ++ [.verbatim [')']]) := rfl
  rw [htemplate, Template.positional, Template.fill]
  show '(' :: (Template.positional d k _ ++ rest) = _
  rw [Template.positional_append, List.append_assoc]
  rfl

theorem length_references_congr {f g : Filter String} (h : f.outline = g.outline) :
    f.references.length = g.references.length := by
  rw [← length_references_outline, h, length_references_outline]

/-- A filter is told apart from any other one as a part of a group, whatever stands behind them. -/
def Distinct (d : Dialect) (f : Filter String) : Prop :=
  ∀ (g : Filter String) (k : Nat) (rest rest' : List Char), f.Legible → g.Legible →
    BehindPart rest → BehindPart rest' →
      f.partTemplate.positional d k ++ rest = g.partTemplate.positional d k ++ rest' →
        f.outline = g.outline ∧ rest = rest'

theorem outline_group (c : Connective) (parts : List (Filter String)) :
    (group c parts).outline = group c (parts.map outline) :=
  map_group _ c parts

theorem behindPart_furtherTemplate (c : Connective) (parts : List (Filter String))
    (hrest : BehindGroup rest) :
    BehindPart ((furtherTemplate c parts).positional d k ++ rest) := by
  cases parts with
  | nil => exact hrest.behindPart
  | cons part parts => exact behindPart_cons (Or.inl rfl) _

/-- A separator does not stand behind a group. -/
theorem furtherTemplate_cons_ne {c : Connective} {part : Filter String}
    {parts : List (Filter String)} (hrest : BehindGroup rest) (rest' : List Char) :
    (furtherTemplate c (part :: parts)).positional d k ++ rest' ≠ rest := by
  rw [positional_furtherTemplate_cons]
  rintro rfl
  cases hrest ' ' rfl

/-- Parts of one connective are told apart one by one. -/
theorem eq_of_furtherTemplate_append {c : Connective} (hrest : BehindGroup rest)
    (hrest' : BehindGroup rest') : ∀ {parts parts' : List (Filter String)} {k : Nat},
      (∀ part ∈ parts, Distinct d part) → (∀ part ∈ parts, part.Legible) →
        (∀ part ∈ parts', part.Legible) →
          (furtherTemplate c parts).positional d k ++ rest =
            (furtherTemplate c parts').positional d k ++ rest' →
          parts.map outline = parts'.map outline ∧ rest = rest'
  | [], [], _, _, _, _, h => ⟨rfl, h⟩
  | [], _ :: _, _, _, _, _, h => absurd h.symm (furtherTemplate_cons_ne hrest rest')
  | _ :: _, [], _, _, _, _, h => absurd h (furtherTemplate_cons_ne hrest' rest)
  | part :: parts, part' :: parts', k, hdistinct, hlegible, hlegible', h => by
    obtain ⟨hpart, hparts⟩ := List.forall_mem_cons.mp hdistinct
    obtain ⟨hf, hfs⟩ := List.forall_mem_cons.mp hlegible
    obtain ⟨hg, hgs⟩ := List.forall_mem_cons.mp hlegible'
    rw [positional_furtherTemplate_cons, positional_furtherTemplate_cons,
      List.append_cancel_left_eq] at h
    obtain ⟨houtline, h⟩ := hpart part' k _ _ hf hg (behindPart_furtherTemplate c parts hrest)
      (behindPart_furtherTemplate c parts' hrest') h
    -- the parts have as many placeholders, so the numbers go on alike
    rw [length_references_congr houtline] at h
    obtain ⟨houtlines, h⟩ := eq_of_furtherTemplate_append hrest hrest' hparts hfs hgs h
    exact ⟨by rw [List.map_cons, List.map_cons, houtline, houtlines], h⟩

/-- **A group is known from its text**, in front of a bracket or at the end. -/
theorem eq_of_group_append {c c' : Connective} {parts parts' : List (Filter String)}
    (hdistinct : ∀ part ∈ parts, Distinct d part) (hf : (group c parts).Legible)
    (hg : (group c' parts').Legible) (hrest : BehindGroup rest) (hrest' : BehindGroup rest')
    (h : (group c parts).template.positional d k ++ rest =
      (group c' parts').template.positional d k ++ rest') :
    (group c parts).outline = (group c' parts').outline ∧ rest = rest' := by
  obtain ⟨htwo, hfs⟩ := legible_group_iff.mp hf
  obtain ⟨htwo', hgs⟩ := legible_group_iff.mp hg
  match parts, parts', htwo, htwo' with
  | first :: second :: others, first' :: second' :: others', _, _ =>
    obtain ⟨hfirst, hothers⟩ := List.forall_mem_cons.mp hdistinct
    obtain ⟨hf, hfs⟩ := List.forall_mem_cons.mp hfs
    obtain ⟨hg, hgs⟩ := List.forall_mem_cons.mp hgs
    rw [positional_group, positional_group] at h
    obtain ⟨houtline, h⟩ := hfirst first' k _ _ hf hg (behindPart_furtherTemplate c _ hrest)
      (behindPart_furtherTemplate c' _ hrest') h
    rw [length_references_congr houtline] at h
    -- the separator in front of the second part tells the connective
    have hc : c = c' := by
      rw [positional_furtherTemplate_cons, positional_furtherTemplate_cons] at h
      exact (Connective.eq_of_separator_append h).1
    subst hc
    obtain ⟨houtlines, h⟩ := eq_of_furtherTemplate_append hrest hrest' hothers hfs hgs h
    refine ⟨?_, h⟩
    rw [outline_group, outline_group, List.map_cons, houtline, houtlines, ← List.map_cons]

/-- A comparison begins with a mark, and a group inside another one with a bracket. -/
theorem leaf_append_ne_group (p : Predicate String) (c : Connective)
    (parts : List (Filter String)) (rest rest' : List Char) :
    (leaf p).partTemplate.positional d k ++ rest ≠
      (group c parts).partTemplate.positional d k ++ rest' := by
  rw [positional_part_group]
  show p.template.positional d k ++ rest ≠ _
  rw [p.positional_append, Dialect.quotePath_eq]
  cases d <;> simp [Dialect.quoteMark]

/-- **Every filter is told apart** as a part of a group. -/
theorem distinct (f : Filter String) : Distinct d f := by
  induction f with
  | leaf p =>
    intro g k rest rest' hf hg hrest hrest' h
    cases g with
    | leaf q =>
      obtain ⟨hoperands, hrests⟩ := Predicate.eq_of_positional_append
        (hf.suited p (List.mem_singleton_self p)) (hg.suited q (List.mem_singleton_self q))
        hrest hrest' h
      exact ⟨congrArg leaf hoperands, hrests⟩
    | group c parts => exact absurd h (leaf_append_ne_group p c parts rest rest')
  | group c parts ih =>
    intro g k rest rest' hf hg hrest hrest' h
    cases g with
    | leaf q => exact absurd h.symm (leaf_append_ne_group q c parts rest' rest)
    | group c' parts' =>
      rw [positional_part_group, positional_part_group] at h
      obtain ⟨houtline, h⟩ := eq_of_group_append ih hf hg (behindGroup_bracket rest)
        (behindGroup_bracket rest') (List.cons.inj h).2
      exact ⟨houtline, (List.cons.inj h).2⟩

/-- A comparison is not the text of a group. -/
theorem leaf_ne_group {p : Predicate String} {c : Connective} {parts : List (Filter String)}
    (hp : (leaf p).Legible) (hg : (group c parts).Legible) :
    (leaf p).template.positional d 1 ≠ (group c parts).template.positional d 1 := by
  intro h
  obtain ⟨htwo, hgs⟩ := legible_group_iff.mp hg
  match parts, htwo with
  | first :: second :: others, _ =>
    rw [← List.append_nil (Template.positional d 1 (leaf p).template),
      ← List.append_nil (Template.positional d 1 (group c _).template), positional_group] at h
    -- the comparison would be the first part, with nothing behind it
    obtain ⟨-, hfurther⟩ := distinct (leaf p) first 1 _ _ hp (hgs first List.mem_cons_self)
      behindGroup_nil.behindPart (behindPart_furtherTemplate c _ behindGroup_nil) h
    exact furtherTemplate_cons_ne behindGroup_nil [] hfurther.symm

/-- **A filter is known from its statement**, up to the names of its placeholders. -/
theorem outline_of_statement {f g : Filter String} (hf : f.Legible) (hg : g.Legible)
    (h : f.statement d = g.statement d) : f.outline = g.outline := by
  have htext : f.template.positional d 1 = g.template.positional d 1 := String.ofList_injective h
  have hend : BehindPart [] := behindGroup_nil.behindPart
  cases f with
  | leaf p =>
    cases g with
    | leaf q =>
      exact (distinct (leaf p) (leaf q) 1 [] [] hf hg hend hend (congrArg (· ++ []) htext)).1
    | group c parts => exact absurd htext (leaf_ne_group hf hg)
  | group c parts =>
    cases g with
    | leaf q => exact absurd htext.symm (leaf_ne_group hg hf)
    | group c' parts' =>
      exact (eq_of_group_append (fun part _ => distinct part) hf hg behindGroup_nil behindGroup_nil
        (congrArg (· ++ []) htext)).1

end Filter

end Pieces

/-! ### Rendered queries -/

namespace Query

theorem statement_of_bound {f : Filter String} {bindings : Bindings}
    (h : ∀ name ∈ f.references, name ∈ bindings.names) (d : Dialect) :
    (render ⟨some f, bindings⟩ d).map Prod.fst = .ok (f.statement d) := by
  rw [render_eq_ok_iff.mpr ⟨h, rfl, rfl⟩]
  rfl

/-- **Quoting makes statements unambiguous.** Two legible filters that are rendered to the same
text, with values for all placeholders, are equal up to the names of the placeholders, whatever
texts their fields are. A path is read back just from its quotes, and these end at the same place
whatever follows, unless it goes on with the mark of the dialect or a dot. -/
theorem render_unambiguous (d : Dialect) :
    (∀ (f g : Filter String) (bindings bindings' : Bindings), f.Legible → g.Legible →
      (∀ name ∈ f.references, name ∈ bindings.names) →
      (∀ name ∈ g.references, name ∈ bindings'.names) →
        (render ⟨some f, bindings⟩ d).map Prod.fst = (render ⟨some g, bindings'⟩ d).map Prod.fst →
          f.outline = g.outline) ∧
    (∀ path, d.readPath? (d.quotePath path) = some (path, [])) ∧
    ∀ cs path rest, d.readPath? cs = some (path, rest) ↔ cs = d.quotePath path ++ rest ∧
      ∀ c ∈ rest.head?, c ≠ d.quoteMark ∧ c ≠ '.' := by
  refine ⟨?_, fun path => ?_, fun cs path rest => Dialect.readPath?_eq_some_iff⟩
  · intro f g bindings bindings' hf hg hbound hbound' h
    rw [statement_of_bound hbound, statement_of_bound hbound'] at h
    exact Filter.outline_of_statement hf hg (Except.ok.inj h)
  · exact Dialect.readPath?_eq_some_iff.mpr ⟨(List.append_nil _).symm, Dialect.ends_nil⟩

/-- A filter with one placeholder of a given name and another one, whose fields read like SQL. -/
def hostileFilter (name : String) : Filter String :=
  .group .or
    [.leaf ⟨"a\" = $1 OR \"b.c", .equal, .single name⟩,
      .group .and [.leaf ⟨"", .notIn, .list ["r", name]⟩, .leaf ⟨".", .between, .range name "r"⟩]]

/-- The statement of `hostileFilter`, whatever the name. -/
def hostileStatement : String :=
  "\"a\"\" = $1 OR \"\"b\".\"c\" = $1 OR (\"\" NOT IN ($2, $3) AND \"\".\"\" BETWEEN $4 AND $5)"

theorem legible_hostileFilter (name : String) : (hostileFilter name).Legible := by
  simp only [hostileFilter, Filter.legible_group_iff, List.forall_mem_cons]
  have hleaf (p : Predicate String) (hp : p.operand.suits p.comparison) :
      (Filter.leaf p).Legible :=
    ⟨.leaf p, List.forall_mem_singleton.mpr hp⟩
  exact ⟨le_rfl, hleaf _ rfl, ⟨le_rfl, hleaf _ rfl, hleaf _ rfl, nofun⟩, nofun⟩

theorem render_unambiguous_hostileFilter :
    (hostileFilter "p").Legible ∧ (hostileFilter "q").Legible ∧
      (render ⟨some (hostileFilter "p"), [("p", .null), ("r", .null)]⟩ .postgres).map Prod.fst =
        .ok hostileStatement ∧
      (render ⟨some (hostileFilter "q"), [("r", .null), ("q", .null)]⟩ .postgres).map Prod.fst =
        .ok hostileStatement ∧
      (hostileFilter "p").outline = (hostileFilter "q").outline :=
  ⟨legible_hostileFilter "p", legible_hostileFilter "q", rfl, rfl,
    (render_unambiguous .postgres).1 (hostileFilter "p") (hostileFilter "q")
      [("p", .null), ("r", .null)] [("r", .null), ("q", .null)] (legible_hostileFilter "p")
      (legible_hostileFilter "q") (by decide) (by decide) rfl⟩

end Query

/-! ### Compiled queries -/

namespace Step

/-- A step compiles a payload with the standard operators. -/
def IsStandard (step : Step) : Prop :=
  ∃ compiler, step.compiler? = some compiler ∧ compiler.operators = .standard

theorem IsStandard.isCompilation {step : Step} (h : step.IsStandard) :
    step.isCompilation = true := by
  obtain ⟨compiler, hcompiler, -⟩ := h
  cases step with
  | compile compiler payload => rfl
  | compileJson compiler payload => rfl
  | add c f => cases hcompiler
  | bind name value => cases hcompiler

/-- **What is compiled with the standard operators is legible.** -/
theorem legible_run {steps : List Step} (hsteps : ∀ step ∈ steps, step.IsStandard) :
    ∀ f ∈ (run Query.empty steps).filter, f.Legible := by
  intro f hf
  obtain ⟨hfolded, hpermitted⟩ := folded_run (fun step h => (hsteps step h).isCompilation) f hf
  refine ⟨hfolded, fun p hp => ?_⟩
  obtain ⟨compiler, hcompiler, hpermits⟩ := hpermitted p hp
  obtain ⟨step, hstep, hmade⟩ := List.mem_filterMap.mp hcompiler
  obtain ⟨compiler', hmade', hstandard⟩ := hsteps step hstep
  rw [hmade] at hmade'
  cases hmade'
  exact hpermits.operand hstandard

/-- So two queries that are compiled with the standard operators ask for the same, up to the names
of their placeholders, if they have the same statement for a database. -/
theorem outline_of_render_run (d : Dialect) {steps steps' : List Step}
    (hsteps : ∀ step ∈ steps, step.IsStandard) (hsteps' : ∀ step ∈ steps', step.IsStandard)
    {f g : Filter String} (hf : (run Query.empty steps).filter = some f)
    (hg : (run Query.empty steps').filter = some g)
    (h : ((run Query.empty steps).render d).map Prod.fst =
      ((run Query.empty steps').render d).map Prod.fst) : f.outline = g.outline := by
  have hstatement {steps : List Step} {f : Filter String}
      (hsteps : ∀ step ∈ steps, step.IsStandard) (hf : (run Query.empty steps).filter = some f) :
      ((run Query.empty steps).render d).map Prod.fst = .ok (f.statement d) := by
    have hempty : Query.empty.Bound := fun name hname => by cases hname
    have hbound := bound_run steps (fun step h => (hsteps step h).isCompilation) hempty
    generalize run Query.empty steps = q at hf hbound ⊢
    obtain ⟨filter, bindings⟩ := q
    cases hf
    exact Query.statement_of_bound (Query.bound_iff.mp hbound) d
  rw [hstatement hsteps hf, hstatement hsteps' hg] at h
  exact Filter.outline_of_statement (legible_run hsteps f hf) (legible_run hsteps' g hg)
    (Except.ok.inj h)

end Step

end RuleFilter
