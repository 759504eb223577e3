import RuleFilter.Json.Reader
import RuleFilter.Proofs.Arguments
import RuleFilter.Proofs.Patterns
import RuleFilter.Proofs.Trimming

/-! # Numbers and booleans given as text

A number or a boolean is converted like its own text (`readText?_compact`). Under the type integer
that is because an integer is read back from its text and every other text of a number has
something behind its digits; under the type boolean because only the integers 1 and 0 are written
`1` and `0`. No date, time or timestamp is written like a number: there is no colon, and no hyphen
right behind the first digits. Blanks around the text do not matter, because a number has none. -/

namespace RuleFilter

/-- A number or a boolean. -/
inductive Json.Literal : Json → Prop where
  | number (n : Number) : Literal (.num n)
  | boolean (b : Bool) : Literal (.bool b)

/-- A number that is no signed 64-bit integer: too far from zero, or not written as an integer. -/
inductive Number.Unfit : Number → Prop where
  | int (n : Int) (h : n < -0x8000000000000000 ∨ 0x7FFFFFFFFFFFFFFF < n) : Unfit (.int n)
  | float (x : Binary64) : Unfit (.float x)

/-! ### Texts of literals -/

/-- The text of a literal is one word. -/
theorem isWordChar_compact {x : Json} (literal : x.Literal) :
    ∀ c ∈ x.compact, Json.isWordChar c = true := by
  cases literal with
  | number n => exact isWordChar_write n
  | boolean b => exact List.all_eq_true.mp (by cases b <;> rfl)

/-- The blanks around the text of a literal are all that is trimmed. -/
theorem trim_text {x : Json} (literal : x.Literal) {front back : String}
    (hfront : ∀ c ∈ front.toList, Text.isBlank c = true)
    (hback : ∀ c ∈ back.toList, Text.isBlank c = true) :
    Text.trim (front ++ x.text ++ back).toList = x.compact := by
  rw [String.toList_append, String.toList_append, Json.text, String.toList_ofList]
  exact Text.trim_surrounded hfront
    (fun c hc => isBlank_of_isWordChar (isWordChar_compact literal c hc)) hback

theorem trimLeft_compact {x : Json} (literal : x.Literal) : Text.trimLeft x.compact = x.compact :=
  Text.dropWhile_isBlank_eq_self fun c hc =>
    isBlank_of_isWordChar (isWordChar_compact literal c hc)

theorem colon_notMem_compact {x : Json} (literal : x.Literal) : ':' ∉ x.compact := fun h =>
  absurd (isWordChar_compact literal _ h) (by decide)

/-- The text of a literal has no hyphen right behind its first digits. -/
theorem head_pastDigits_compact {x : Json} (literal : x.Literal) :
    (pastDigits x.compact).head? ≠ some '-' := by
  cases literal with
  | boolean b => cases b <;> decide
  | number n =>
    cases n with
    | int n =>
      show (pastDigits (toString n).toList).head? ≠ some '-'
      rw [pastDigits_int]
      simp
    | float x =>
      obtain ⟨c, rest, hpast, hc⟩ := pastDigits_float x
      show (pastDigits (Number.write (.float x))).head? ≠ some '-'
      rw [hpast]
      exact fun h => hc (Option.some.inj h)

/-! ### Integers -/

/-- The text of a double is no integer. -/
theorem readInt?_float (x : Binary64) : readInt? (Number.write (.float x)) = none := by
  obtain ⟨c, rest, hpast, -⟩ := pastDigits_float x
  refine Option.eq_none_iff_forall_ne_some.mpr fun n hn => ?_
  rw [pastDigits_of_readInt? hn] at hpast
  cases hpast

theorem readText?_integer {x : Json} (literal : x.Literal) :
    ValueType.integer.readText? x.compact = ValueType.integer.convert? x := by
  cases literal with
  | boolean b => cases b <;> rfl
  | number n =>
    cases n with
    | int n =>
      show ((readInt? (toString n).toList).bind int64?).map Value.int = _
      rw [readInt?_toString]
      rfl
    | float x =>
      show ((readInt? (Number.write (.float x))).bind int64?).map Value.int = _
      rw [readInt?_float]
      rfl

/-! ### Booleans -/

theorem lowercase_toString (n : Int) : Text.lowercase (toString n) = toString n := by
  have hlower : ∀ c ∈ (toString n).toList, c.toLower = c := by
    rw [toList_toString, List.append_nil]
    intro c hc
    rcases List.mem_append.mp hc with hc | hc
    · unfold minus at hc
      split_ifs at hc
      · rw [List.mem_singleton.mp hc]
        rfl
      · cases hc
    · exact toLower_of_isDigit (isDigit_toDigits c hc)
  unfold Text.lowercase
  rw [List.map_congr_left hlower, List.map_id', String.ofList_toList]

/-- Only 1 and 0 are integers that are read as booleans. -/
theorem readBoolean?_toString (n : Int) :
    readBoolean? (toString n).toList =
      if n = 1 then some true else if n = 0 then some false else none := by
  have hword : ∀ word : String, readInt? word.toList = none → toString n ≠ word := by
    rintro word hnone rfl
    rw [readInt?_toString] at hnone
    cases hnone
  have hnumber : ∀ {m : Int}, toString n = toString m ↔ n = m :=
    ⟨toString_injective, fun h => h ▸ rfl⟩
  have hone : toString n = "1" ↔ n = 1 := hnumber (m := 1)
  have hzero : toString n = "0" ↔ n = 0 := hnumber (m := 0)
  unfold readBoolean?
  simp only
  rw [String.ofList_toList, lowercase_toString]
  simp only [hword "true" rfl, hword "false" rfl, hone, hzero, false_or]

/-- A text with a point or a sign is no boolean. -/
theorem readBoolean?_eq_none_of_mem {c : Char} {cs : List Char} (h : c ∈ cs)
    (hc : c ∈ ['.', '+', '-']) : readBoolean? cs = none := by
  have hmem : c ∈ (Text.lowercase (String.ofList cs)).toList := by
    have hlower : c.toLower = c := by
      simp only [List.mem_cons, List.not_mem_nil, or_false] at hc
      rcases hc with rfl | rfl | rfl <;> rfl
    unfold Text.lowercase
    rw [String.toList_ofList, String.toList_ofList]
    exact List.mem_map.mpr ⟨c, h, hlower⟩
  have hword : ∀ word : String, (∀ d ∈ ['.', '+', '-'], d ∉ word.toList) →
      Text.lowercase (String.ofList cs) ≠ word := by
    rintro word hforeign rfl
    exact hforeign c hc hmem
  unfold readBoolean?
  simp only [hword "true" (by simp), hword "1" (by simp),
    hword "false" (by simp), hword "0" (by simp), or_self, if_false]

/-- The text of a double is no boolean. -/
theorem readBoolean?_float (x : Binary64) : readBoolean? (Number.write (.float x)) = none := by
  unfold Number.write
  simp only
  split_ifs with hfinite
  · obtain ⟨whole, mark, rest, heq, htext⟩ := Binary64.write_document_eq hfinite
    obtain ⟨c, hc, hsymbol⟩ := htext.symbol
    rw [heq]
    exact readBoolean?_eq_none_of_mem (List.mem_append_right _ (List.mem_append_right _ hc)) hsymbol
  · rfl

theorem readText?_boolean {x : Json} (literal : x.Literal) :
    ValueType.boolean.readText? x.compact = ValueType.boolean.convert? x := by
  cases literal with
  | boolean b => cases b <;> rfl
  | number n =>
    cases n with
    | int n =>
      show (readBoolean? (toString n).toList).map Value.boolean = _
      rw [readBoolean?_toString]
      show _ = if Number.int n = .int 1 then some (Value.boolean true)
        else if Number.int n = .int 0 then some (.boolean false) else none
      simp only [Number.int.injEq]
      split_ifs <;> rfl
    | float x =>
      show (readBoolean? (Number.write (.float x))).map Value.boolean = none
      rw [readBoolean?_float]
      rfl

/-! ### All types -/

/-- **A literal is converted like its text**, under every type but those of doubles and texts. -/
theorem readText?_compact {type : ValueType} {x : Json} (literal : x.Literal)
    (htype : type ∈ [.integer, .boolean, .date, .time, .datetime]) :
    type.readText? x.compact = type.convert? x := by
  simp only [List.mem_cons, List.not_mem_nil, or_false] at htype
  rcases htype with rfl | rfl | rfl | rfl | rfl
  · exact readText?_integer literal
  · exact readText?_boolean literal
  · have hdate : Date.read? x.compact = none := by
      refine Option.eq_none_iff_forall_ne_some.mpr fun d hd => ?_
      have hhead := Date.pastDigits_of_read? hd
      rw [trimLeft_compact literal] at hhead
      exact head_pastDigits_compact literal hhead
    show (Date.read? x.compact).map Value.date = _
    rw [hdate]
    cases literal <;> rfl
  · show (Time.read? x.compact).map Value.time = _
    rw [Time.read?_eq_none (colon_notMem_compact literal)]
    cases literal <;> rfl
  · show (Timestamp.read? x.compact).map Value.timestamp = _
    rw [Timestamp.read?_eq_none (colon_notMem_compact literal)]
    cases literal <;> rfl

/-- Nor do blanks around the text matter. -/
theorem convert?_padded {type : ValueType} {x : Json} (literal : x.Literal)
    (htype : type ∈ [.integer, .boolean, .date, .time, .datetime]) {front back : String}
    (hfront : ∀ c ∈ front.toList, Text.isBlank c = true)
    (hback : ∀ c ∈ back.toList, Text.isBlank c = true) :
    type.convert? (.str (front ++ x.text ++ back)) = type.convert? x := by
  have htext : type.convert? (.str (front ++ x.text ++ back)) =
      type.readText? (Text.trim (front ++ x.text ++ back).toList) := by
    simp only [List.mem_cons, List.not_mem_nil, or_false] at htype
    rcases htype with rfl | rfl | rfl | rfl | rfl <;> rfl
  rw [htext, trim_text literal hfront hback, readText?_compact literal htype]

theorem int64?_eq_none_iff {n : Int} :
    int64? n = none ↔ n < -0x8000000000000000 ∨ 0x7FFFFFFFFFFFFFFF < n := by
  unfold int64?
  split_ifs with h
  · simp
    omega
  · simp
    omega

/-- A number that is no 64-bit integer is neither an integer nor a boolean. -/
theorem convert?_unfit {type : ValueType} {n : Number} (htype : type ∈ [.integer, .boolean])
    (h : n.Unfit) : type.convert? (.num n) = none := by
  simp only [List.mem_cons, List.not_mem_nil, or_false] at htype
  cases h with
  | int n hn =>
    rcases htype with rfl | rfl
    · show (int64? n).map Value.int = none
      rw [int64?_eq_none_iff.mpr hn]
      rfl
    · show (if Number.int n = .int 1 then some (Value.boolean true)
        else if Number.int n = .int 0 then some (.boolean false) else none) = none
      rw [if_neg, if_neg]
      · rintro ⟨⟩
        omega
      · rintro ⟨⟩
        omega
  | float x => rcases htype with rfl | rfl <;> rfl

/-! ### Coercion -/

theorem ValueType.ofName_exact {name : String}
    (h : Text.lowercase name ∈ ["integer", "boolean", "date", "time", "datetime"]) :
    ofName name ∈ [.integer, .boolean, .date, .time, .datetime] := by
  simp only [List.mem_cons, List.not_mem_nil, or_false] at h
  rcases h with h | h | h | h | h <;> simp [ofName, h]

theorem ValueType.ofName_narrow {name : String}
    (h : Text.lowercase name ∈ ["integer", "boolean"]) : ofName name ∈ [.integer, .boolean] := by
  simp only [List.mem_cons, List.not_mem_nil, or_false] at h
  rcases h with h | h <;> simp [ofName, h]

/-- **A number or a boolean is coerced like its text**, blanks around the text included: one
succeeds iff the other does, with the same value. A number that is no 64-bit integer is neither an
integer nor a boolean in either form. -/
theorem coerce_literal_text (operators : OperatorTable) (settings : Settings) (rule : Rule)
    (o : Operator) (x : Json) (front back : String)
    (known : operators.find? rule.operator = some o) (plain : o.Plain)
    (typed : settings.coerceTypes = true)
    (exact : Text.lowercase rule.type ∈ ["integer", "boolean", "date", "time", "datetime"])
    (literal : x.Literal) (hfront : ∀ c ∈ front.toList, Text.isBlank c = true)
    (hback : ∀ c ∈ back.toList, Text.isBlank c = true) :
    (∀ coerced, (rule.withValue x).coerce operators settings = .ok coerced ↔
      (rule.withValue (.str (front ++ x.text ++ back))).coerce operators settings =
        .ok coerced) ∧
    ∀ n, x = .num n → n.Unfit → Text.lowercase rule.type ∈ ["integer", "boolean"] →
      (rule.withValue x).coerce operators settings =
        .error (.unfitValue rule.field (.ofType (.ofName rule.type)) x) ∧
      (rule.withValue (.str (front ++ x.text ++ back))).coerce operators settings =
        .error (.unfitValue rule.field (.ofType (.ofName rule.type))
          (.str (front ++ x.text ++ back))) := by
  have htype : rule.valueType settings = .ofName rule.type := if_pos typed
  have hpadded : (rule.valueType settings).convert? (.str (front ++ x.text ++ back)) =
      (rule.valueType settings).convert? x :=
    convert?_padded literal (htype ▸ ValueType.ofName_exact exact) hfront hback
  constructor
  · intro coerced
    rw [coerce_plain_eq_ok_iff settings (rule.withValue x) known plain,
      coerce_plain_eq_ok_iff settings (rule.withValue (.str (front ++ x.text ++ back))) known plain]
    show (∃ v, (rule.valueType settings).convert? x = some v ∧ _) ↔
      ∃ v, (rule.valueType settings).convert? (.str (front ++ x.text ++ back)) = some v ∧ _
    rw [hpadded]
  · rintro n rfl hunfit narrow
    have hnone : (rule.valueType settings).convert? (.num n) = none :=
      convert?_unfit (htype ▸ ValueType.ofName_narrow narrow) hunfit
    rw [← htype]
    exact ⟨coerce_plain_unfit settings (rule.withValue (.num n)) known plain nofun hnone,
      coerce_plain_unfit settings (rule.withValue (.str _)) known plain nofun (hpadded.trans hnone)⟩

/-- A rule that compares with a boolean. -/
def flagRule : Rule :=
  ⟨.str "r", "f", "Boolean", "number", "equal", .null⟩

/-- One is true, and the first integer beyond 64 bits is nothing, with blanks and without. -/
theorem coerce_literal_text_flag :
    (flagRule.withValue (.str "\u3000 1\n")).coerce .standard {} =
        .ok (⟨"equal", .equal, true, .empty⟩, .single (.boolean true)) ∧
      (flagRule.withValue (.str " 9223372036854775808")).coerce .standard {} =
        .error (.unfitValue "f" (.ofType .boolean) (.str " 9223372036854775808")) := by
  constructor
  · have h := coerce_literal_text .standard {} flagRule ⟨"equal", .equal, true, .empty⟩
      (.num (.int 1)) "\u3000 " "\n" rfl ⟨rfl, rfl⟩ rfl (by decide) (.number _)
      (List.all_eq_true.mp rfl) (List.all_eq_true.mp rfl)
    exact (h.1 _).mp rfl
  · have h := coerce_literal_text .standard {} flagRule ⟨"equal", .equal, true, .empty⟩
      (.num (.int 9223372036854775808)) " " "" rfl ⟨rfl, rfl⟩ rfl (by decide) (.number _)
      (List.all_eq_true.mp rfl) (List.all_eq_true.mp rfl)
    exact (h.2 _ rfl (.int _ (by decide)) (by decide)).2

/-- Numbers that are written with a point, with an exponent or as minus zero are doubles. -/
example : Json.ofText? "[1.0,1e2,-0]" =
    some (.arr [.num (.float ⟨0x3FF0000000000000⟩), .num (.float ⟨0x4059000000000000⟩),
      .num (.float ⟨0x8000000000000000⟩)]) := by
  rfl

end RuleFilter
