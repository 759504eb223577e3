import RuleFilter.Proofs.CalendarTexts
import RuleFilter.Proofs.Literals

/-! # Values and their own texts

A value that was read from a text is read again from its own text, under the same type, as itself
but for the fraction of a second (`convert?_plainText`, `coerce_own_text`). The plain text of a
timestamp has no place for the fraction, although the Internet form is read with one and the
document form of the value keeps it; so such a timestamp does not come back
(`coerce_own_text_fraction`). -/

namespace RuleFilter

/-! ### Values of a type -/

/-- The value without the fraction of its second, if it has one. -/
def Value.wholeSeconds : Value → Value
  | .time t => .time t.wholeSeconds
  | .timestamp t => .timestamp t.wholeSeconds
  | v => v

/-- What may be read from a text under a type. -/
inductive ValueType.Reads : ValueType → Value → Prop where
  | text (s : String) : Reads .text (.text s)
  | integer (n : Int64) : Reads .integer (.int n)
  | boolean (b : Bool) : Reads .boolean (.boolean b)
  | date (d : Date) : Reads .date (.date d)
  | time (t : Time) : Reads .time (.time t)
  | timestamp (t : Timestamp) : Reads .datetime (.timestamp t)

variable {type : ValueType} {v : Value}

/-- The types that are written the way they are read. -/
def ValueType.readable : List ValueType :=
  [.text, .integer, .boolean, .date, .time, .datetime]

theorem reads_of_convert? (htype : type ∈ ValueType.readable) {s : String}
    (h : type.convert? (.str s) = some v) : type.Reads v := by
  simp only [ValueType.readable, List.mem_cons, List.not_mem_nil, or_false] at htype
  rcases htype with rfl | rfl | rfl | rfl | rfl | rfl
  · cases h
    exact .text s
  all_goals
    simp only [ValueType.convert?, ValueType.readText?, Option.map_eq_some_iff] at h
    obtain ⟨own, -, rfl⟩ := h
    constructor

/-- **A fraction is read from the Internet form only.** -/
theorem wholeSeconds_of_convert? (htype : type ∈ ValueType.readable) {s : String}
    (h : type.convert? (.str s) = some v) :
    v.wholeSeconds = v ∨ ∃ t, v = .timestamp t ∧ t.time.nanosecond ≠ 0 ∧
      Timestamp.readInternet? (Text.trim s.toList) = some t := by
  cases reads_of_convert? htype h with
  | text | integer | boolean | date => exact Or.inl rfl
  | time t =>
    obtain ⟨t', hread, heq⟩ := Option.map_eq_some_iff.mp h
    cases heq
    exact Or.inl (congrArg Value.time (Time.wholeSeconds_of_read? hread))
  | timestamp t =>
    obtain ⟨t', hread, heq⟩ := Option.map_eq_some_iff.mp h
    cases heq
    -- the Internet form may have a fraction, but need not
    by_cases hwhole : t.time.nanosecond = 0
    · exact Or.inl (congrArg Value.timestamp (t.wholeSeconds_eq_self_iff.mpr hwhole))
    · have hinternet := (Timestamp.wholeSeconds_of_read? hread).resolve_left
        (mt t.wholeSeconds_eq_self_iff.mp hwhole)
      exact Or.inr ⟨t, rfl, hwhole, hinternet⟩

/-! ### Texts of values -/

theorem int64?_toInt (n : Int64) : int64? n.toInt = some n := by
  unfold int64?
  rw [if_pos ⟨n.le_toInt, Int.le_of_lt_add_one n.toInt_lt⟩, Int64.ofInt_toInt]

/-- A literal is converted like its text, without blanks. -/
theorem convert?_text {x : Json} (literal : x.Literal)
    (htype : type ∈ [.integer, .boolean, .date, .time, .datetime]) :
    type.convert? (.str x.text) = type.convert? x := by
  have hblank : ∀ c ∈ "".toList, Text.isBlank c = true := nofun
  have hpadded := convert?_padded literal htype hblank hblank
  rwa [String.empty_append, String.append_empty] at hpadded

/-- **A value is read again from its own text**, but for the fraction of its second. -/
theorem convert?_plainText (h : type.Reads v) :
    ∃ text, v.plainText? = some text ∧ type.convert? (.str text) = some v.wholeSeconds := by
  cases h with
  | text s => exact ⟨s, rfl, rfl⟩
  | integer n =>
    refine ⟨toString n.toInt, rfl, ?_⟩
    have hown := convert?_text (.number (.int n.toInt))
      (show ValueType.integer ∈ _ from List.mem_cons_self)
    have htext : (Json.num (.int n.toInt)).text = toString n.toInt := String.ofList_toList
    rw [htext] at hown
    rw [hown]
    show (int64? n.toInt).map Value.int = _
    rw [int64?_toInt]
    rfl
  | boolean b =>
    refine ⟨(Json.bool b).text, ?_, ?_⟩
    · cases b <;> rfl
    · exact convert?_text (.boolean b) (List.mem_cons_of_mem _ List.mem_cons_self)
  | date d =>
    refine ⟨_, rfl, ?_⟩
    show (Date.read? (Text.trim (String.ofList d.text).toList)).map Value.date = _
    rw [String.toList_ofList, Text.trim_word d.isBlank_text, d.read?_text]
    rfl
  | time t =>
    refine ⟨_, rfl, ?_⟩
    show (Time.read? (Text.trim (String.ofList t.clockText).toList)).map Value.time = _
    rw [String.toList_ofList, Text.trim_word t.isBlank_clockText, t.read?_clockText]
    rfl
  | timestamp t =>
    refine ⟨_, rfl, ?_⟩
    show (Timestamp.read? (Text.trim (String.ofList t.clockText).toList)).map Value.timestamp = _
    rw [String.toList_ofList, t.trim_clockText, t.read?_clockText]
    rfl

/-! ### Coercion -/

theorem ValueType.ofName_readable {name : String}
    (h : Text.lowercase name ∈ ["string", "integer", "boolean", "date", "time", "datetime"]) :
    ofName name ∈ readable := by
  simp only [List.mem_cons, List.not_mem_nil, or_false] at h
  rcases h with h | h | h | h | h | h <;> simp [ofName, readable, h]

/-- **What was coerced from a text is coerced again from its own text**, with the same operator, and
is the same value but for the fraction of its second. Only the Internet form of a timestamp has one:
every other value comes back as it was. -/
theorem coerce_own_text (operators : OperatorTable) (settings : Settings) (rule : Rule)
    (o : Operator) (s : String) (v : Value)
    (known : operators.find? rule.operator = some o) (plain : o.Plain)
    (typed : settings.coerceTypes = true)
    (readable : Text.lowercase rule.type ∈
      ["string", "integer", "boolean", "date", "time", "datetime"])
    (coerced : (rule.withValue (.str s)).coerce operators settings = .ok (o, .single v)) :
    (∃ text, v.plainText? = some text ∧
      (rule.withValue (.str text)).coerce operators settings =
        .ok (o, .single v.wholeSeconds)) ∧
    (v.wholeSeconds = v ∨ ∃ t, v = .timestamp t ∧ t.time.nanosecond ≠ 0 ∧
      Timestamp.readInternet? (Text.trim s.toList) = some t) := by
  have htype : rule.valueType settings ∈ ValueType.readable := by
    rw [show rule.valueType settings = .ofName rule.type from if_pos typed]
    exact ValueType.ofName_readable readable
  obtain ⟨own, hown, heq⟩ :=
    (coerce_plain_eq_ok_iff settings (rule.withValue (.str s)) known plain).mp coerced
  cases heq
  change (rule.valueType settings).convert? (.str s) = some v at hown
  obtain ⟨text, htext, hagain⟩ := convert?_plainText (reads_of_convert? htype hown)
  refine ⟨⟨text, htext, ?_⟩, wholeSeconds_of_convert? htype hown⟩
  exact (coerce_plain_eq_ok_iff settings (rule.withValue (.str text)) known plain).mpr
    ⟨_, hagain, rfl⟩

/-- A rule that compares with a timestamp. -/
def momentRule : Rule :=
  ⟨.str "r", "f", "DateTime", "text", "equal", .null⟩

/-- A leap second, on the ides of March of the year -44. -/
def leapSecond : Timestamp :=
  ⟨⟨-44, 3, 15, by decide⟩, ⟨9, 5, 60, 0, by decide⟩⟩

/-- A short text with blanks and its full form are the same timestamp. -/
theorem coerce_own_text_leapSecond :
    (momentRule.withValue (.str "\u3000-44-3-15 \t9:5:60\n")).coerce .standard {} =
        .ok (⟨"equal", .equal, true, .empty⟩, .single (.timestamp leapSecond)) ∧
      (momentRule.withValue (.str "-0044-03-15 09:05:60")).coerce .standard {} =
        .ok (⟨"equal", .equal, true, .empty⟩, .single (.timestamp leapSecond)) := by
  have hcoerced : (momentRule.withValue (.str "\u3000-44-3-15 \t9:5:60\n")).coerce .standard {} =
      .ok (⟨"equal", .equal, true, .empty⟩, .single (.timestamp leapSecond)) := rfl
  obtain ⟨⟨text, htext, hagain⟩, -⟩ := coerce_own_text .standard {} momentRule
    ⟨"equal", .equal, true, .empty⟩ "\u3000-44-3-15 \t9:5:60\n" (.timestamp leapSecond)
    rfl ⟨rfl, rfl⟩ rfl (by decide) hcoerced
  cases htext
  exact ⟨hcoerced, hagain⟩

/-- A timestamp with a fraction. -/
def halfSecond : Timestamp :=
  ⟨⟨2024, 1, 2, by decide⟩, ⟨3, 4, 5, 500000000, by decide⟩⟩

/-- **A timestamp with a fraction does not come back**: its text is read as another one, although
the document form keeps the fraction. -/
theorem coerce_own_text_fraction :
    (momentRule.withValue (.str "2024-01-02T03:04:05.5Z")).coerce .standard {} =
        .ok (⟨"equal", .equal, true, .empty⟩, .single (.timestamp halfSecond)) ∧
      (Value.timestamp halfSecond).plainText? = some "2024-01-02 03:04:05" ∧
      (momentRule.withValue (.str "2024-01-02 03:04:05")).coerce .standard {} ≠
        .ok (⟨"equal", .equal, true, .empty⟩, .single (.timestamp halfSecond)) ∧
      (Value.timestamp halfSecond).toJson =
        .obj [("Timestamp", .str "2024-01-02T03:04:05.500")] := by
  have hagain : (momentRule.withValue (.str "2024-01-02 03:04:05")).coerce .standard {} =
      .ok (⟨"equal", .equal, true, .empty⟩, .single (.timestamp halfSecond.wholeSeconds)) := rfl
  refine ⟨rfl, rfl, fun heq => ?_, rfl⟩
  rw [hagain] at heq
  simp [halfSecond, Timestamp.wholeSeconds, Time.wholeSeconds] at heq

end RuleFilter
