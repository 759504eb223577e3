import RuleFilter.Json.Reader
import RuleFilter.Proofs.Arguments
import RuleFilter.Proofs.Rounding

/-! # Integers that are not converted

A rule of type `string`, of an unknown type, or under settings that switch conversion off gives its
operator the number of the document as it is. A document keeps integers from `-2 ^ 63` to
`2 ^ 64 - 1`; a value keeps them up to `2 ^ 63 - 1` only, and above that takes the nearest double,
which has another text and is shared by many integers (`coerce_integer_untyped`). -/

namespace RuleFilter

/-- The values of the rule are not converted. -/
def Rule.Untyped (settings : Settings) (rule : Rule) : Prop :=
  settings.coerceTypes = false ∨
    Text.lowercase rule.type ∉ ["integer", "double", "boolean", "date", "time", "datetime"]

theorem ValueType.ofName_untyped {name : String} (h : Text.lowercase name ∉
    ["integer", "double", "boolean", "date", "time", "datetime"]) :
    ofName name = .text ∨ ofName name = .scalar := by
  simp only [List.mem_cons, List.not_mem_nil, or_false, not_or] at h
  obtain ⟨hinteger, hdouble, hboolean, hdate, htime, hdatetime⟩ := h
  unfold ofName
  simp only [hinteger, hdouble, hboolean, hdate, htime, hdatetime, if_false]
  split_ifs
  · exact .inl rfl
  · exact .inr rfl

theorem valueType_untyped {settings : Settings} {rule : Rule} (untyped : rule.Untyped settings) :
    rule.valueType settings = .text ∨ rule.valueType settings = .scalar := by
  unfold Rule.valueType
  split_ifs with htyped
  · rcases untyped with hoff | hname
    · rw [hoff] at htyped
      cases htyped
    · exact ValueType.ofName_untyped hname
  · exact .inr rfl

theorem convert?_untyped {type : ValueType} (untyped : type = .text ∨ type = .scalar) (x : Json) :
    type.convert? x = Value.ofScalar? x := by
  rcases untyped with rfl | rfl <;> cases x <;> rfl

/-! ### Bound values -/

/-- The value of an integer that is not converted. -/
def boundInteger (n : Int) : Value :=
  if n ≤ 0x7FFFFFFFFFFFFFFF then .int (Int64.ofInt n) else .double (.ofInt n)

variable {n m : Int}

theorem bounds_of_isIntegral (h : Number.isIntegral n = true) :
    -0x8000000000000000 ≤ n ∧ n ≤ 0xFFFFFFFFFFFFFFFF := by
  unfold Number.isIntegral at h
  simpa using h

theorem wide_of_isIntegral (h : Number.isIntegral n = true) (hn : 0x7FFFFFFFFFFFFFFF < n) :
    Binary64.Wide n :=
  ⟨by omega, (bounds_of_isIntegral h).2⟩

theorem ofScalar?_int (h : Number.isIntegral n = true) :
    Value.ofScalar? (.num (.int n)) = some (boundInteger n) := by
  have hlow := (bounds_of_isIntegral h).1
  unfold boundInteger
  simp only [Value.ofScalar?, Number.toInt64?, int64?]
  split_ifs <;> first | rfl | omega

theorem toInt_ofInt (h : Number.isIntegral n = true) (hn : n ≤ 0x7FFFFFFFFFFFFFFF) :
    (Int64.ofInt n).toInt = n :=
  Int64.toInt_ofInt_of_le (bounds_of_isIntegral h).1 (by omega)

/-- An integer that stays one has its own text. -/
theorem plainText?_boundInteger (h : Number.isIntegral n = true) (hn : n ≤ 0x7FFFFFFFFFFFFFFF) :
    (boundInteger n).plainText? = some (toString n) := by
  unfold boundInteger
  rw [if_pos hn]
  show some (toString (Int64.ofInt n).toInt) = _
  rw [toInt_ofInt h hn]

/-- One that becomes a double has its own text only if that ends in two zeros. -/
theorem dvd_of_plainText?_boundInteger (h : Number.isIntegral n = true)
    (hn : 0x7FFFFFFFFFFFFFFF < n) (htext : (boundInteger n).plainText? = some (toString n)) :
    100 ∣ n := by
  obtain ⟨front, hfront⟩ := Binary64.write_plain_ofInt (wide_of_isIntegral h hn)
  unfold boundInteger at htext
  rw [if_neg (by omega)] at htext
  change some (String.ofList (Binary64.plain.write (.ofInt n))) = _ at htext
  have hdigits : (toString n).toList = front ++ ['0', '0'] := by
    rw [← Option.some.inj htext, String.toList_ofList, hfront]
  rw [toList_toString, List.append_nil] at hdigits
  have hminus : minus (n < 0) = [] := by
    rw [decide_eq_false (by omega)]
    rfl
  rw [hminus, List.nil_append] at hdigits
  have hdvd := Binary64.dvd_of_toDigits hdigits
  omega

/-- Two integers have one value iff they are one, or become the same double. -/
theorem boundInteger_eq_iff (hn : Number.isIntegral n = true) (hm : Number.isIntegral m = true) :
    boundInteger n = boundInteger m ↔ n = m ∨ 0x7FFFFFFFFFFFFFFF < n ∧ 0x7FFFFFFFFFFFFFFF < m ∧
      Binary64.steps n = Binary64.steps m := by
  constructor
  · intro h
    unfold boundInteger at h
    split_ifs at h with hnlow hmlow hmlow
    · have hint := congrArg Int64.toInt (Value.int.inj h)
      rw [toInt_ofInt hn hnlow, toInt_ofInt hm hmlow] at hint
      exact .inl hint
    · have hdouble := Value.double.inj h
      exact .inr ⟨by omega, by omega, (Binary64.ofInt_eq_iff (wide_of_isIntegral hn (by omega))
        (wide_of_isIntegral hm (by omega))).mp hdouble⟩
  · rintro (rfl | ⟨hnhigh, hmhigh, hsteps⟩)
    · rfl
    · unfold boundInteger
      rw [if_neg (by omega), if_neg (by omega), (Binary64.ofInt_eq_iff
        (wide_of_isIntegral hn hnhigh) (wide_of_isIntegral hm hmhigh)).mpr hsteps]

/-! ### Coercion -/

/-- **What becomes of an integer that is not converted.** It is bound, and up to `2 ^ 63 - 1` as
itself, with its own text and apart from every other integer. Above that no integer but a multiple
of a hundred keeps its text, and all that are rounded to the same number of steps are bound as one
value. -/
theorem coerce_integer_untyped (operators : OperatorTable) (settings : Settings) (rule : Rule)
    (o : Operator) (known : operators.find? rule.operator = some o) (plain : o.Plain)
    (untyped : rule.Untyped settings) (n : Int) (hn : Number.isIntegral n = true) :
    (rule.withValue (.num (.int n))).coerce operators settings =
        .ok (o, .single (boundInteger n)) ∧
      (n ≤ 0x7FFFFFFFFFFFFFFF → (boundInteger n).plainText? = some (toString n)) ∧
      ((boundInteger n).plainText? = some (toString n) → n ≤ 0x7FFFFFFFFFFFFFFF ∨ 100 ∣ n) ∧
      ∀ m, Number.isIntegral m = true →
        (boundInteger n = boundInteger m ↔ n = m ∨ 0x7FFFFFFFFFFFFFFF < n ∧
          0x7FFFFFFFFFFFFFFF < m ∧ Binary64.steps n = Binary64.steps m) := by
  refine ⟨?_, plainText?_boundInteger hn, fun htext => ?_, fun m hm => boundInteger_eq_iff hn hm⟩
  · have hconvert := convert?_untyped (valueType_untyped untyped) (.num (.int n))
    exact (coerce_plain_eq_ok_iff settings (rule.withValue (.num (.int n))) known plain).mpr
      ⟨boundInteger n, hconvert.trans (ofScalar?_int hn), rfl⟩
  · by_cases hhigh : n ≤ 0x7FFFFFFFFFFFFFFF
    · exact .inl hhigh
    · exact .inr (dvd_of_plainText?_boundInteger hn (by omega) htext)

/-- A rule that compares with an integer and declares a text. -/
def idRule : Rule :=
  ⟨.str "r", "f", "string", "number", "equal", .null⟩

/-- An integer that no double is equal to is bound as itself. -/
theorem coerce_integer_untyped_exact :
    (idRule.withValue (.num (.int 9007199254740993))).coerce .standard {} =
        .ok (⟨"equal", .equal, true, .empty⟩, .single (.int 9007199254740993)) ∧
      (boundInteger 9007199254740993).plainText? = some "9007199254740993" := by
  have h := coerce_integer_untyped .standard {} idRule ⟨"equal", .equal, true, .empty⟩ rfl
    ⟨rfl, rfl⟩ (.inr (by decide)) 9007199254740993 rfl
  exact ⟨h.1, h.2.1 (by decide)⟩

/-- The first integer beyond the signed range is bound with another text, as the value that the next
integer has as well. -/
theorem coerce_integer_beyond :
    (idRule.withValue (.num (.int 9223372036854775808))).coerce .standard {} =
        .ok (⟨"equal", .equal, true, .empty⟩, .single (.double ⟨0x43E0000000000000⟩)) ∧
      (idRule.withValue (.num (.int 9223372036854775809))).coerce .standard {} =
        .ok (⟨"equal", .equal, true, .empty⟩, .single (.double ⟨0x43E0000000000000⟩)) ∧
      (Value.double ⟨0x43E0000000000000⟩).plainText? = some "9223372036854776000" ∧
      toString (9223372036854775808 : Int) ≠ "9223372036854776000" := by
  exact ⟨rfl, rfl, rfl, by decide⟩

end RuleFilter
