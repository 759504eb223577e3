import RuleFilter.Text.Pieces
import RuleFilter.Proofs.Arguments
import RuleFilter.Proofs.Trimming
import Mathlib.Data.List.Forall2
import Mathlib.Data.List.Infix

/-! # Items

An operator that takes several values is given them as an array or as a text with delimiters. The
text means the array of its pieces: these are what the delimiter separates, since joining them gives
back the text (`intercalate_piecesAfter`) and none of them contains the delimiter
(`not_infix_of_mem_piecesAfter`). The items of an array are converted one by one as any single value
is, and the first that does not convert is the error (`coerce_items`). -/

namespace RuleFilter

/-! ### Pieces -/

namespace Text

variable {d : List Char}

theorem piecesAfter_ne_nil : ∀ (skip : Nat) (cs : List Char), piecesAfter d skip cs ≠ []
  | _, [] => by simp [piecesAfter]
  | skip + 1, _ :: rest => piecesAfter_ne_nil skip rest
  | 0, c :: rest => by
    unfold piecesAfter
    split_ifs
    · exact List.cons_ne_nil _ _
    · rw [Ne, List.modifyHead_eq_nil_iff]
      exact piecesAfter_ne_nil 0 rest

theorem piecesAfter_skip : ∀ (skip : Nat) (cs : List Char),
    piecesAfter d skip cs = piecesAfter d 0 (cs.drop skip)
  | 0, _ => rfl
  | _ + 1, [] => rfl
  | skip + 1, _ :: rest => piecesAfter_skip skip rest

/-- The pieces of a text that begins with the delimiter. -/
theorem piecesAfter_append (h : d ≠ []) (rest : List Char) :
    piecesAfter d 0 (d ++ rest) = [] :: piecesAfter d 0 rest := by
  obtain ⟨e, es, rfl⟩ := List.exists_cons_of_ne_nil h
  have hbegins : (e :: es).isPrefixOf (e :: (es ++ rest)) = true :=
    List.isPrefixOf_iff_prefix.mpr (List.prefix_append (e :: es) rest)
  rw [List.cons_append, piecesAfter, if_pos hbegins, piecesAfter_skip, List.length_cons,
    Nat.add_sub_cancel, List.drop_left]

/-- The pieces of a text that begins with something else. -/
theorem piecesAfter_cons {c : Char} {rest : List Char} (h : ¬ d <+: c :: rest) :
    piecesAfter d 0 (c :: rest) = (piecesAfter d 0 rest).modifyHead (c :: ·) := by
  rw [piecesAfter, if_neg (mt List.isPrefixOf_iff_prefix.mp h)]

/-- A property of every text, if it is kept by a delimiter in front, and by a character in front
with which no delimiter begins. -/
theorem induction_pieces {motive : List Char → Prop} (h : d ≠ []) (nil : motive [])
    (delimiter : ∀ rest, motive rest → motive (d ++ rest))
    (char : ∀ c rest, ¬ d <+: c :: rest → motive rest → motive (c :: rest)) :
    ∀ cs, motive cs
  | [] => nil
  | c :: rest => by
    by_cases hbegins : d <+: c :: rest
    · obtain ⟨after, hafter⟩ := hbegins
      have hshorter : after.length < (c :: rest).length := by
        have := List.length_pos_of_ne_nil h
        rw [← hafter, List.length_append]
        omega
      rw [← hafter]
      exact delimiter after (induction_pieces h nil delimiter char after)
    · exact char c rest hbegins (induction_pieces h nil delimiter char rest)
termination_by cs => cs.length
decreasing_by
  · exact hshorter
  · exact Nat.lt_succ_self _

theorem intercalate_modifyHead {c : Char} : ∀ {ps : List (List Char)}, ps ≠ [] →
    d.intercalate (ps.modifyHead (c :: ·)) = c :: d.intercalate ps
  | [], h => absurd rfl h
  | [p], _ => by simp
  | p :: q :: ps, _ => by
    simp only [List.modifyHead_cons, List.intercalate_cons_cons, List.cons_append]

/-- **Joining the pieces gives back the text.** -/
theorem intercalate_piecesAfter (h : d ≠ []) (cs : List Char) :
    d.intercalate (piecesAfter d 0 cs) = cs := by
  induction cs using induction_pieces h with
  | nil => simp [piecesAfter]
  | delimiter rest ih =>
    rw [piecesAfter_append h, List.intercalate_cons_of_ne_nil (piecesAfter_ne_nil 0 rest), ih,
      List.nil_append]
  | char c rest hbegins ih =>
    rw [piecesAfter_cons hbegins, intercalate_modifyHead (piecesAfter_ne_nil 0 rest), ih]

/-- The text begins with its first piece. -/
theorem prefix_of_piecesAfter (h : d ≠ []) {p cs : List Char} {ps : List (List Char)}
    (hpieces : piecesAfter d 0 cs = p :: ps) : p <+: cs := by
  rw [← intercalate_piecesAfter h cs, hpieces]
  cases ps with
  | nil => simp
  | cons q qs =>
    rw [List.intercalate_cons_cons, List.append_assoc]
    exact List.prefix_append _ _

/-- **No piece contains the delimiter.** -/
theorem not_infix_of_mem_piecesAfter (h : d ≠ []) (cs : List Char) :
    ∀ p ∈ piecesAfter d 0 cs, ¬ d <:+: p := by
  induction cs using induction_pieces h with
  | nil => simpa [piecesAfter] using h
  | delimiter rest ih =>
    rw [piecesAfter_append h, List.forall_mem_cons]
    exact ⟨by simpa using h, ih⟩
  | char c rest hbegins ih =>
    obtain ⟨p, ps, hpieces⟩ := List.exists_cons_of_ne_nil (piecesAfter_ne_nil (d := d) 0 rest)
    rw [hpieces, List.forall_mem_cons] at ih
    rw [piecesAfter_cons hbegins, hpieces, List.modifyHead_cons, List.forall_mem_cons]
    refine ⟨fun hin => ?_, ih.2⟩
    -- a delimiter in the longer piece would stand at its beginning, and so in front of the text
    rcases List.infix_cons_iff.mp hin with hfirst | hlater
    · exact hbegins (hfirst.trans
        (List.cons_prefix_cons.mpr ⟨rfl, prefix_of_piecesAfter h hpieces⟩))
    · exact ih.1 hlater

end Text

/-! ### Texts with delimiters -/

namespace Settings

variable {settings : Settings}

theorem delimiter_ne_nil (valid : settings.fault? = none) : settings.listDelimiter.toList ≠ [] := by
  unfold fault? at valid
  split_ifs at valid with hempty hword
  simpa using hempty

/-- The pieces of a text at the delimiter, before any trimming. -/
structure Cuts (settings : Settings) (text : String) (pieces : List String) : Prop where
  joined : settings.listDelimiter.intercalate pieces = text
  whole : ∀ piece ∈ pieces, ¬ settings.listDelimiter.toList <:+: piece.toList

theorem cuts_splitAt (valid : settings.fault? = none) (text : String) :
    settings.Cuts text (Text.splitAt settings.listDelimiter text) := by
  have hd := delimiter_ne_nil valid
  have hpieces : Text.pieces settings.listDelimiter.toList text.toList =
      Text.piecesAfter settings.listDelimiter.toList 0 text.toList := by
    unfold Text.pieces
    rw [if_neg (by simpa using hd)]
  unfold Text.splitAt
  rw [hpieces]
  refine ⟨?_, fun piece hpiece => ?_⟩
  · rw [← String.toList_inj, String.toList_intercalate, List.map_map]
    simpa [Function.comp_def] using Text.intercalate_piecesAfter hd text.toList
  · obtain ⟨cs, hcs, rfl⟩ := List.mem_map.mp hpiece
    rw [String.toList_ofList]
    exact Text.not_infix_of_mem_piecesAfter hd _ cs hcs

/-- **A text stands for no values just if it is blank.** -/
theorem splitList_eq_nil_iff (valid : settings.fault? = none) (text : String) :
    settings.splitList text = [] ↔ ∀ c ∈ text.toList, Text.isBlank c = true := by
  have hsome : Text.splitAt settings.listDelimiter text ≠ [] := by
    unfold Text.splitAt Text.pieces
    rw [if_neg (by simpa using delimiter_ne_nil valid), Ne, List.map_eq_nil_iff]
    exact Text.piecesAfter_ne_nil 0 _
  rw [← Text.trim_eq_nil_iff, ← List.isEmpty_iff]
  unfold splitList
  split_ifs with hblank
  · simpa using hblank
  · simpa [hsome] using hblank
  · simpa [hsome] using hblank

/-- A text that is not blank stands for its pieces, trimmed if the settings say so. -/
theorem splitList_eq {text : String} (h : ∃ c ∈ text.toList, Text.isBlank c = false) :
    settings.splitList text =
      if settings.trimListItems then
        (Text.splitAt settings.listDelimiter text).map Text.trimmed
      else Text.splitAt settings.listDelimiter text := by
  obtain ⟨c, hc, hblank⟩ := h
  have hmem := Text.mem_trim hc hblank
  unfold splitList
  rw [if_neg fun hempty => List.ne_nil_of_mem hmem (List.isEmpty_iff.mp hempty)]

end Settings

/-! ### Conversion one by one -/

theorem convert_eq_ok_iff {field : String} {type : ValueType} {x : Json} {v : Value} :
    convert field type x = .ok v ↔ type.convert? x = some v := by
  unfold convert
  cases type.convert? x <;> simp

theorem convert_eq_error_iff {field : String} {type : ValueType} {x : Json} {e : CompileError} :
    convert field type x = .error e ↔
      type.convert? x = none ∧ e = .unfitValue field (.ofType type) x := by
  unfold convert
  cases type.convert? x <;> simp [eq_comm]

theorem convertAll_eq_ok_iff {field : String} {type : ValueType} : ∀ {items : List Json}
    {values : List Value}, convertAll field type items = .ok values ↔
      List.Forall₂ (fun x v => type.convert? x = some v) items values
  | [], values => by
    rw [convertAll, List.forall₂_nil_left_iff]
    simp [eq_comm]
  | x :: rest, values => by
    rw [convertAll, except_bind_eq_ok, List.forall₂_cons_left_iff]
    simp only [except_bind_eq_ok, convert_eq_ok_iff, @convertAll_eq_ok_iff _ _ rest]
    constructor
    · rintro ⟨v, hv, vs, hvs, h⟩
      cases h
      exact ⟨v, vs, hv, hvs, rfl⟩
    · rintro ⟨v, vs, hv, hvs, rfl⟩
      exact ⟨v, hv, vs, hvs, rfl⟩

/-- **The first item that does not convert is the error.** -/
theorem convertAll_eq_error_iff {field : String} {type : ValueType} {e : CompileError} :
    ∀ {items : List Json}, convertAll field type items = .error e ↔
      ∃ before x after, items = before ++ x :: after ∧
        (∀ y ∈ before, ∃ v, type.convert? y = some v) ∧ type.convert? x = none ∧
        e = .unfitValue field (.ofType type) x
  | [] => by
    rw [convertAll]
    simp
  | x :: rest => by
    rw [convertAll, except_bind_eq_error]
    simp only [convert_eq_error_iff, convert_eq_ok_iff]
    constructor
    · rintro (⟨hx, rfl⟩ | ⟨v, hv, h⟩)
      · exact ⟨[], x, rest, rfl, by simp, hx, rfl⟩
      · rcases except_bind_eq_error.mp h with h | ⟨vs, -, h⟩
        · obtain ⟨before, y, after, rfl, hbefore, hy, he⟩ := convertAll_eq_error_iff.mp h
          exact ⟨x :: before, y, after, rfl, List.forall_mem_cons.mpr ⟨⟨v, hv⟩, hbefore⟩, hy, he⟩
        · cases h
    · rintro ⟨before, y, after, hitems, hbefore, hy, he⟩
      cases before with
      | nil =>
        cases hitems
        exact Or.inl ⟨hy, he⟩
      | cons z before =>
        cases hitems
        obtain ⟨⟨v, hv⟩, hbefore⟩ := List.forall_mem_cons.mp hbefore
        have hrest := convertAll_eq_error_iff.mpr ⟨before, y, after, rfl, hbefore, hy, he⟩
        exact Or.inr ⟨v, hv, except_bind_eq_error.mpr (Or.inl hrest)⟩

/-! ### Arrays -/

/-- The number of values is one that an operator takes: two for a range, one at least otherwise. -/
def Operator.Counts (o : Operator) (count : Nat) : Prop :=
  if o.comparison.isRange then count = 2 else 1 ≤ count

theorem counts_iff {o : Operator} (uses : o.usesValue = true)
    (several : o.comparison.takesSeveral = true) (count : Nat) :
    o.Counts count ↔ o.arity.admits count = true := by
  unfold Operator.Counts
  rw [arity_of_usesValue uses, if_pos several]
  split_ifs
  · simp [Arity.admits]
  · simp [Arity.admits, Nat.one_le_iff_ne_zero]

theorem argument_of_several {o : Operator} (uses : o.usesValue = true)
    (several : o.comparison.takesSeveral = true) (settings : Settings) (rule : Rule) :
    rule.argument settings o = rule.listArgument settings o := by
  unfold Rule.argument
  rw [uses, if_neg (by simp), if_pos several]

theorem listArgument_of_items {settings : Settings} {o : Operator} {rule : Rule}
    {items : List Json} (h : settings.itemsOf? rule.value = some items) :
    rule.listArgument settings o =
      if o.arity.admits items.length then
        (convertAll rule.field (rule.valueType settings) items).map .list
      else rule.mismatch o (.many items.length) := by
  unfold Rule.listArgument
  rw [h]

/-- A document is coerced to one value by an operator of this name, all else about the rule being
the same. -/
def Rule.Singly (rule : Rule) (operators : OperatorTable) (settings : Settings) (name : String)
    (x : Json) (v : Value) : Prop :=
  ∃ one, ({ rule.withValue x with operator := name } : Rule).coerce operators settings =
    .ok (one, .single v)

section Coercion

variable {operators : OperatorTable} {settings : Settings} {rule : Rule} {o one : Operator}
  {name : String}

theorem singly_iff (single : operators.find? name = some one) (plain : one.Plain) {x : Json}
    {v : Value} :
    rule.Singly operators settings name x v ↔ (rule.valueType settings).convert? x = some v := by
  unfold Rule.Singly
  simp only [coerce_plain_eq_ok_iff settings { rule.withValue x with operator := name } single
    plain]
  constructor
  · rintro ⟨o, w, hw, h⟩
    cases h
    exact hw
  · intro h
    exact ⟨one, v, h, rfl⟩

/-- A document that stands for items is coerced by their number and then one by one. -/
theorem coerce_of_items (known : operators.find? rule.operator = some o)
    (uses : o.usesValue = true) (several : o.comparison.takesSeveral = true) (value : Json)
    {items : List Json} (h : settings.itemsOf? value = some items) :
    (rule.withValue value).coerce operators settings =
      if o.arity.admits items.length then
        (convertAll rule.field (rule.valueType settings) items).map fun values => (o, .list values)
      else .error (.arityMismatch rule.field rule.operator o.arity (.many items.length)) := by
  have hitems : settings.itemsOf? (rule.withValue value).value = some items := h
  rw [coerce_eq settings (rule.withValue value) known, argument_of_several uses several,
    listArgument_of_items hitems]
  split_ifs
  · show ((convertAll rule.field (rule.valueType settings) items).map Argument.list).map _ = _
    cases convertAll rule.field (rule.valueType settings) items <;> rfl
  · rfl

theorem coerce_array_eq_ok_iff (known : operators.find? rule.operator = some o)
    (uses : o.usesValue = true) (several : o.comparison.takesSeveral = true) (items : List Json)
    (coerced : Operator × Argument) :
    (rule.withValue (.arr items)).coerce operators settings = .ok coerced ↔
      o.Counts items.length ∧ ∃ values, coerced = (o, .list values) ∧
        List.Forall₂ (fun x v => (rule.valueType settings).convert? x = some v) items values := by
  rw [coerce_of_items known uses several (.arr items) rfl, counts_iff uses several]
  split_ifs with hadmits
  · rw [except_map_eq_ok]
    constructor
    · rintro ⟨values, hvalues, rfl⟩
      exact ⟨hadmits, values, rfl, convertAll_eq_ok_iff.mp hvalues⟩
    · rintro ⟨-, values, rfl, hvalues⟩
      exact ⟨values, convertAll_eq_ok_iff.mpr hvalues, rfl⟩
  · simp [hadmits]

/-- Of enough items, the first that has no value is the error. -/
theorem coerce_array_unfit (known : operators.find? rule.operator = some o)
    (uses : o.usesValue = true) (several : o.comparison.takesSeveral = true) {items : List Json}
    (hcount : o.Counts items.length)
    (h : ¬ ∃ values,
      List.Forall₂ (fun x v => (rule.valueType settings).convert? x = some v) items values) :
    ∃ before x after, items = before ++ x :: after ∧
      (∀ y ∈ before, ∃ v, (rule.valueType settings).convert? y = some v) ∧
      (rule.valueType settings).convert? x = none ∧
      (rule.withValue (.arr items)).coerce operators settings =
        .error (.unfitValue rule.field (.ofType (rule.valueType settings)) x) := by
  rw [coerce_of_items known uses several (.arr items) rfl,
    if_pos ((counts_iff uses several _).mp hcount)]
  cases hall : convertAll rule.field (rule.valueType settings) items with
  | ok values => exact absurd ⟨values, convertAll_eq_ok_iff.mp hall⟩ h
  | error e =>
    obtain ⟨before, x, after, hitems, hbefore, hx, rfl⟩ := convertAll_eq_error_iff.mp hall
    exact ⟨before, x, after, hitems, hbefore, hx, rfl⟩

/-- **What becomes of several values.** A text is coerced as the array of the texts that it stands
for: none if it is blank, and otherwise its pieces at the delimiter. If the count of an array is
wrong, that is the error. An array is coerced to the values of its items if the operator takes so
many and each of them is coerced to one value by an operator that takes one; else, of enough items,
the first that has no value is the error. -/
theorem coerce_items (operators : OperatorTable) (settings : Settings) (rule : Rule)
    (o : Operator) (valid : settings.fault? = none)
    (known : operators.find? rule.operator = some o) (uses : o.usesValue = true)
    (several : o.comparison.takesSeveral = true) :
    (∀ text, (rule.withValue (.str text)).coerce operators settings =
      (rule.withValue (.arr ((settings.splitList text).map .str))).coerce operators settings) ∧
    (∀ text, settings.splitList text = [] ↔ ∀ c ∈ text.toList, Text.isBlank c = true) ∧
    (∀ text, (∃ c ∈ text.toList, Text.isBlank c = false) → ∃ pieces, settings.Cuts text pieces ∧
      settings.splitList text =
        if settings.trimListItems then pieces.map Text.trimmed else pieces) ∧
    (∀ items, ¬ o.Counts items.length →
      (rule.withValue (.arr items)).coerce operators settings =
        .error (.arityMismatch rule.field rule.operator o.arity (.many items.length))) ∧
    ∀ (name : String) (one : Operator), operators.find? name = some one → one.Plain →
      (∀ items coerced,
        (rule.withValue (.arr items)).coerce operators settings = .ok coerced ↔
          o.Counts items.length ∧ ∃ values, coerced = (o, .list values) ∧
            List.Forall₂ (fun x v => rule.Singly operators settings name x v) items values) ∧
      ∀ items, o.Counts items.length →
        (¬ ∃ values,
          List.Forall₂ (fun x v => rule.Singly operators settings name x v) items values) →
          ∃ before x after, items = before ++ x :: after ∧
            (∀ y ∈ before, ∃ v, rule.Singly operators settings name y v) ∧
            (¬ ∃ v, rule.Singly operators settings name x v) ∧
            (rule.withValue (.arr items)).coerce operators settings =
              .error (.unfitValue rule.field (.ofType (rule.valueType settings)) x) := by
  refine ⟨fun text => ?_, Settings.splitList_eq_nil_iff valid, fun text htext =>
    ⟨_, Settings.cuts_splitAt valid text, Settings.splitList_eq htext⟩, fun items hcount => ?_,
    fun name one single plain => ?_⟩
  · rw [coerce_of_items known uses several (.str text) rfl,
      coerce_of_items known uses several (.arr ((settings.splitList text).map .str)) rfl]
  · rw [coerce_of_items known uses several (.arr items) rfl,
      if_neg (mt (counts_iff uses several _).mpr hcount)]
  · simp only [singly_iff single plain]
    refine ⟨coerce_array_eq_ok_iff known uses several, fun items hcount hnone => ?_⟩
    obtain ⟨before, x, after, hitems, hbefore, hx, hcoerce⟩ :=
      coerce_array_unfit known uses several hcount hnone
    exact ⟨before, x, after, hitems, hbefore, by simp [hx], hcoerce⟩

end Coercion

/-- Settings with a delimiter that can overlap itself. -/
def overlappingSettings : Settings :=
  { listDelimiter := "aa", trimListItems := false }

/-- A rule that asks for a range of texts. -/
def rangeRule : Rule :=
  ⟨.str "r", "f", "string", "text", "between", .null⟩

/-- Of delimiters that overlap, the first one counts. -/
theorem coerce_items_overlapping :
    overlappingSettings.fault? = none ∧
      OperatorTable.standard.find? "between" = some ⟨"between", .between, true, .empty⟩ ∧
      OperatorTable.standard.find? "equal" = some ⟨"equal", .equal, true, .empty⟩ ∧
      (rangeRule.withValue (.str "1aaa2")).coerce .standard overlappingSettings =
        .ok (⟨"between", .between, true, .empty⟩, .list [.text "1", .text "a2"]) := by
  refine ⟨rfl, rfl, rfl, ?_⟩
  obtain ⟨htext, -, -, -, hitems⟩ := coerce_items .standard overlappingSettings rangeRule
    ⟨"between", .between, true, .empty⟩ rfl rfl rfl rfl
  have harray := (hitems "equal" ⟨"equal", .equal, true, .empty⟩ rfl ⟨rfl, rfl⟩).1
  refine (htext "1aaa2").trans ((harray [.str "1", .str "a2"] _).mpr ⟨rfl, _, rfl, ?_⟩)
  exact .cons ⟨_, rfl⟩ (.cons ⟨_, rfl⟩ .nil)

end RuleFilter
