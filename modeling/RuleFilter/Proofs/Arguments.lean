import RuleFilter.Argument.Coercion
import RuleFilter.Argument.Operand
import RuleFilter.Proofs.Results
import Mathlib.Data.List.Basic

/-! # Arguments and operands

The right-hand side that an operator makes of a coerced argument holds the values of the argument,
all of them and in their order (`operand_of_argument`). An operator takes every argument that it is
given by coercion (`exists_operand_of_argument`): the counts that coercion checks are those that the
arity asks for. -/

namespace RuleFilter

/-- How a comparison takes its values. -/
inductive OperandKind where
  /-- It takes none. -/
  | none
  /-- It compares with the empty text. -/
  | blank
  | values
  deriving DecidableEq

/-- How a right-hand side takes values. -/
def Operand.kind {α : Type} : Operand α → OperandKind
  | .none => .none
  | .blank => .blank
  | .single _ | .list _ | .range _ _ => .values

@[simp]
theorem Operand.kind_map {α β : Type} (g : α → β) : ∀ o : Operand α, (o.map g).kind = o.kind
  | .none | .blank | .single _ | .list _ | .range _ _ => rfl

namespace Argument

/-- How an argument gives values. -/
def kind : Argument → OperandKind
  | .null => .none
  | .blank => .blank
  | .single _ | .list _ => .values

/-- The values of an argument, in their order. -/
def values : Argument → List Value
  | .null | .blank => []
  | .single value => [value]
  | .list values => values

end Argument

theorem argument_of_not_usesValue {o : Operator} (h : o.usesValue = false) (settings : Settings)
    (rule : Rule) :
    rule.argument settings o = .ok (if o.comparison.isNullCheck then .null else .blank) := by
  unfold Rule.argument Operator.isBlankCheck
  rw [h]
  cases o.comparison.isNullCheck <;> rfl

theorem operand?_of_not_usesValue {o : Operator} (h : o.usesValue = false)
    (argument : Argument) :
    o.operand? argument = some (if o.comparison.isNullCheck then .none else .blank) := by
  have harity : o.arity = .none := by
    unfold Operator.arity
    rw [h]
    rfl
  unfold Operator.operand?
  rw [harity]

theorem operand?_of_usesValue {o : Operator} {argument : Argument} {operand : Operand Value}
    (h : o.usesValue = true) (ho : o.operand? argument = some operand) :
    operand.kind = argument.kind ∧ operand.toList = argument.values := by
  have harity : o.arity ≠ .none := by
    unfold Operator.arity
    rw [h]
    split_ifs <;> simp_all
  unfold Operator.operand? at ho
  split at ho
  · exact absurd ‹_› harity
  · cases ho; exact ⟨rfl, rfl⟩
  · cases ho; exact ⟨rfl, rfl⟩
  · cases ho; exact ⟨rfl, rfl⟩
  · cases ho

/-- A right-hand side holds the values of the argument that it is made from. -/
theorem operand_of_argument {settings : Settings} {o : Operator} {rule : Rule}
    {argument : Argument} {operand : Operand Value}
    (ha : rule.argument settings o = .ok argument) (ho : o.operand? argument = some operand) :
    operand.kind = argument.kind ∧ operand.toList = argument.values := by
  cases huse : o.usesValue with
  | true => exact operand?_of_usesValue huse ho
  | false =>
    rw [argument_of_not_usesValue huse] at ha
    rw [operand?_of_not_usesValue huse] at ho
    cases ha
    cases ho
    split_ifs <;> exact ⟨rfl, rfl⟩

/-! ### Every coerced argument has a right-hand side -/

theorem length_of_convertAll {field : String} {type : ValueType} : ∀ {items : List Json}
    {values : List Value}, convertAll field type items = .ok values →
      values.length = items.length
  | [], values, h => by
    cases h
    rfl
  | item :: rest, values, h => by
    unfold convertAll at h
    obtain ⟨first, -, h⟩ := except_bind_eq_ok.mp h
    obtain ⟨others, hothers, h⟩ := except_bind_eq_ok.mp h
    cases h
    rw [List.length_cons, List.length_cons, length_of_convertAll hothers]

/-- An argument of several values has as many as the arity admits. -/
theorem listArgument_eq_ok {settings : Settings} {o : Operator} {rule : Rule}
    {argument : Argument} (h : rule.listArgument settings o = .ok argument) :
    ∃ values, argument = .list values ∧ o.arity.admits values.length = true := by
  unfold Rule.listArgument at h
  cases hitems : settings.itemsOf? rule.value with
  | none =>
    rw [hitems] at h
    cases h
  | some items =>
    simp only [hitems] at h
    split_ifs at h with hadmits
    · obtain ⟨values, hvalues, rfl⟩ := except_map_eq_ok.mp h
      exact ⟨values, rfl, by rwa [length_of_convertAll hvalues]⟩
    · cases h

theorem singleArgument_eq_ok {settings : Settings} {o : Operator} {rule : Rule}
    {argument : Argument} (h : rule.singleArgument settings o = .ok argument) :
    ∃ value, argument = .single value := by
  unfold Rule.singleArgument at h
  split at h
  · cases h
  · split_ifs at h
    · obtain ⟨value, -, rfl⟩ := except_map_eq_ok.mp h
      exact ⟨value, rfl⟩
    · split at h
      · cases h
        exact ⟨_, rfl⟩
      · cases h

theorem arity_of_usesValue {o : Operator} (h : o.usesValue = true) :
    o.arity = if o.comparison.isRange then .two
      else if o.comparison.takesSeveral then .several else .one := by
  unfold Operator.arity
  rw [h]
  rfl

/-- Several values have a right-hand side if the arity admits so many. -/
theorem exists_operand_of_list {o : Operator} {values : List Value} (huse : o.usesValue = true)
    (hseveral : o.comparison.takesSeveral = true)
    (hadmits : o.arity.admits values.length = true) :
    ∃ operand, o.operand? (.list values) = some operand := by
  have harity := arity_of_usesValue huse
  rw [if_pos hseveral] at harity
  unfold Operator.operand?
  split_ifs at harity with hrange <;> rw [harity] at hadmits ⊢
  · obtain ⟨low, high, rfl⟩ := List.length_eq_two.mp (by simpa [Arity.admits] using hadmits)
    exact ⟨_, rfl⟩
  · obtain ⟨value, rest, rfl⟩ := List.exists_cons_of_ne_nil
      (l := values) (by simpa [Arity.admits] using hadmits)
    exact ⟨_, rfl⟩

theorem exists_operand_of_single {o : Operator} {value : Value} (huse : o.usesValue = true)
    (hseveral : o.comparison.takesSeveral = false) :
    ∃ operand, o.operand? (.single value) = some operand := by
  have hrange : o.comparison.isRange = false := by
    cases hc : o.comparison <;> simp_all [Comparison.takesSeveral, Comparison.isRange]
  have harity := arity_of_usesValue huse
  rw [hseveral, hrange] at harity
  unfold Operator.operand?
  rw [harity]
  exact ⟨_, rfl⟩

/-- **An operator takes every argument that coercion gives it.** -/
theorem exists_operand_of_argument {settings : Settings} {o : Operator} {rule : Rule}
    {argument : Argument} (h : rule.argument settings o = .ok argument) :
    ∃ operand, o.operand? argument = some operand := by
  cases huse : o.usesValue with
  | false => exact ⟨_, operand?_of_not_usesValue huse argument⟩
  | true =>
    unfold Rule.argument at h
    rw [huse] at h
    simp only [Bool.not_true, Bool.false_eq_true, if_false] at h
    cases hseveral : o.comparison.takesSeveral with
    | true =>
      rw [if_pos hseveral] at h
      obtain ⟨values, rfl, hadmits⟩ := listArgument_eq_ok h
      exact exists_operand_of_list huse hseveral hadmits
    | false =>
      rw [if_neg (by simp [hseveral])] at h
      obtain ⟨value, rfl⟩ := singleArgument_eq_ok h
      exact exists_operand_of_single huse hseveral

/-! ### Single values -/

/-- An operator takes one value and writes nothing around it. -/
structure Operator.Plain (o : Operator) : Prop where
  arity : o.arity = .one
  bare : o.affix.isEmpty = true

theorem argument_of_plain {o : Operator} (h : o.Plain) (settings : Settings) (rule : Rule) :
    rule.argument settings o = rule.singleArgument settings o := by
  have harity := h.arity
  unfold Operator.arity at harity
  unfold Rule.argument
  -- the other cases give the operator another arity
  split_ifs at harity ⊢
  rfl

/-- A plain operator is given the value that a document converts to, if there is one. -/
theorem argument_eq_ok_iff {o : Operator} (h : o.Plain) {settings : Settings} {rule : Rule}
    {argument : Argument} :
    rule.argument settings o = .ok argument ↔
      ∃ v, (rule.valueType settings).convert? rule.value = some v ∧ argument = .single v := by
  rw [argument_of_plain h]
  unfold Rule.singleArgument
  split
  · rename_i items hitems
    have hnone : (rule.valueType settings).convert? (.arr items) = none := by
      cases rule.valueType settings <;> rfl
    simp [hitems, hnone, Rule.mismatch]
  · rw [if_pos h.bare, except_map_eq_ok]
    unfold convert
    cases (rule.valueType settings).convert? rule.value <;> simp [eq_comm]

theorem coerce_eq {operators : OperatorTable} (settings : Settings) (rule : Rule) {o : Operator}
    (known : operators.find? rule.operator = some o) :
    rule.coerce operators settings =
      (rule.argument settings o).map fun argument => (o, argument) := by
  unfold Rule.coerce
  rw [known]

/-- The rule with another value. -/
def Rule.withValue (rule : Rule) (value : Json) : Rule :=
  { rule with value := value }

/-- **Coercion under a plain operator is conversion.** -/
theorem coerce_plain_eq_ok_iff {operators : OperatorTable} (settings : Settings) (rule : Rule)
    {o : Operator} (known : operators.find? rule.operator = some o) (plain : o.Plain)
    {coerced : Operator × Argument} :
    rule.coerce operators settings = .ok coerced ↔
      ∃ v, (rule.valueType settings).convert? rule.value = some v ∧ coerced = (o, .single v) := by
  rw [coerce_eq settings rule known, except_map_eq_ok]
  constructor
  · rintro ⟨argument, hargument, rfl⟩
    obtain ⟨v, hv, rfl⟩ := (argument_eq_ok_iff plain).mp hargument
    exact ⟨v, hv, rfl⟩
  · rintro ⟨v, hv, rfl⟩
    exact ⟨_, (argument_eq_ok_iff plain).mpr ⟨v, hv, rfl⟩, rfl⟩

/-- A value that does not convert is the error. -/
theorem coerce_plain_unfit {operators : OperatorTable} (settings : Settings) (rule : Rule)
    {o : Operator} (known : operators.find? rule.operator = some o) (plain : o.Plain)
    (single : ∀ items, rule.value ≠ .arr items)
    (h : (rule.valueType settings).convert? rule.value = none) :
    rule.coerce operators settings =
      .error (.unfitValue rule.field (.ofType (rule.valueType settings)) rule.value) := by
  rw [coerce_eq settings rule known, argument_of_plain plain]
  unfold Rule.singleArgument
  split
  · rename_i items hitems
    exact absurd hitems (single items)
  · rw [if_pos plain.bare]
    unfold convert
    rw [h]
    rfl

/-! ### Errors of values -/

/-- The error of a conversion is that the value does not fit. -/
theorem unfit_of_convert {field : String} {type : ValueType} {value : Json} {e : CompileError}
    (h : convert field type value = .error e) :
    ∃ expected unfit, e = .unfitValue field expected unfit := by
  unfold convert at h
  split at h
  · cases h
  · cases h
    exact ⟨_, _, rfl⟩

theorem unfit_of_convertAll {field : String} {type : ValueType} {e : CompileError} :
    ∀ {items : List Json}, convertAll field type items = .error e →
      ∃ expected unfit, e = .unfitValue field expected unfit
  | [], h => by cases h
  | item :: rest, h => by
    unfold convertAll at h
    rcases except_bind_eq_error.mp h with hfirst | ⟨first, -, h⟩
    · exact unfit_of_convert hfirst
    · rcases except_bind_eq_error.mp h with hothers | ⟨others, -, h⟩
      · exact unfit_of_convertAll hothers
      · cases h

/-- What is wrong with the value of a rule: it has not the form of the operator, or some of it does
not fit. -/
inductive ValueError (rule : Rule) (o : Operator) : CompileError → Prop where
  | mismatch (found : Shape) :
      ValueError rule o (.arityMismatch rule.field rule.operator o.arity found)
  | unfit (expected : Expectation) (value : Json) :
      ValueError rule o (.unfitValue rule.field expected value)

theorem valueError_of_listArgument {settings : Settings} {o : Operator} {rule : Rule}
    {e : CompileError} (h : rule.listArgument settings o = .error e) : ValueError rule o e := by
  unfold Rule.listArgument at h
  split at h
  · cases h
    exact .mismatch _
  · split_ifs at h
    · obtain ⟨expected, unfit, rfl⟩ := unfit_of_convertAll (except_map_eq_error.mp h)
      exact .unfit expected unfit
    · cases h
      exact .mismatch _

theorem valueError_of_singleArgument {settings : Settings} {o : Operator} {rule : Rule}
    {e : CompileError} (h : rule.singleArgument settings o = .error e) : ValueError rule o e := by
  unfold Rule.singleArgument at h
  split at h
  · cases h
    exact .mismatch _
  · split_ifs at h
    · obtain ⟨expected, unfit, rfl⟩ := unfit_of_convert (except_map_eq_error.mp h)
      exact .unfit expected unfit
    · split at h
      · cases h
      · cases h
        exact .unfit _ _

/-- **The error of a value names the field of its rule**, and never an operator as unknown. -/
theorem valueError_of_argument {settings : Settings} {o : Operator} {rule : Rule}
    {e : CompileError} (h : rule.argument settings o = .error e) : ValueError rule o e := by
  unfold Rule.argument at h
  split_ifs at h
  · exact valueError_of_listArgument h
  · exact valueError_of_singleArgument h

end RuleFilter
