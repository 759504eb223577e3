import RuleFilter.Proofs.Patterns
import RuleFilter.Proofs.Trimming
import Mathlib.Data.Nat.Digits.Defs

/-! # Dates and times are read back

The text of a date, of a time or of a timestamp is read by the first pattern that it is tried on,
and as what it was written from, but for the fraction of the second, which the text leaves out
(`Date.read?_text`, `Time.read?_clockText`, `Timestamp.read?_clockText`). Month, day and clock are
written with two digits and read by fields that take at most two, so nothing has to stand behind
them; a year may have more than four digits, but then it has a sign. The only readings with a
fraction are those of the Internet form (`Timestamp.wholeSeconds_of_read?`). The full texts, which
have the fraction, are told apart (`Time.fullText_injective`, `Timestamp.fullText_injective`). -/

namespace RuleFilter

/-! ### Padded numbers -/

theorem isDigit_paddedNat {width n : Nat} : ∀ c ∈ paddedNat width n, c.isDigit = true := by
  intro c hc
  rcases List.mem_append.mp hc with hc | hc
  · rw [List.eq_of_mem_replicate hc]
    rfl
  · exact isDigit_toDigits c hc

theorem paddedNat_ne_nil {width n : Nat} : paddedNat width n ≠ [] :=
  List.append_ne_nil_of_right_ne_nil _ Nat.toDigits_ne_nil

theorem length_paddedNat {width n : Nat} (hwidth : 0 < width) (hn : n < 10 ^ width) :
    (paddedNat width n).length = width := by
  have hlength := Nat.toDigits_length 10 n width hwidth hn
  unfold paddedNat
  rw [List.length_append, List.length_replicate]
  omega

/-- Zeros in front do not change the number. -/
theorem readDigits?_paddedNat (width n : Nat) : readDigits? (paddedNat width n) = some n := by
  have hall : (paddedNat width n).all Char.isDigit = true := List.all_eq_true.mpr isDigit_paddedNat
  have hne : (paddedNat width n).isEmpty = false := List.isEmpty_eq_false_iff.mpr paddedNat_ne_nil
  have hvalue : digitsValue (paddedNat width n) = n := by
    unfold digitsValue paddedNat
    rw [Nat.ofDigitChars_append, Nat.ofDigitChars_replicate_zero, Nat.mul_zero,
      Nat.ofDigitChars_ten_toDigits]
  unfold readDigits?
  rw [hall, hne, hvalue]
  rfl

/-! ### Blanks -/

theorem isBlank_of_isDigit {c : Char} (h : c.isDigit = true) : Text.isBlank c = false :=
  isBlank_of_isWordChar (isWordChar_of_isDigit h)

theorem head_paddedNat {width n : Nat} {rest : List Char} :
    ∀ c ∈ (paddedNat width n ++ rest).head?, c.isDigit = true := by
  obtain ⟨c, digits, hdigits⟩ := List.exists_cons_of_ne_nil (@paddedNat_ne_nil width n)
  intro d hd
  rw [hdigits] at hd
  cases hd
  exact isDigit_paddedNat c (hdigits ▸ List.mem_cons_self)

theorem trimLeft_paddedNat {width n : Nat} {rest : List Char} :
    Text.trimLeft (paddedNat width n ++ rest) = paddedNat width n ++ rest :=
  Text.trimLeft_eq_self fun c hc => isBlank_of_isDigit (head_paddedNat c hc)

/-- A mark and digits behind it. -/
theorem isBlank_behind {mark : Char} {width n : Nat} (h : Text.isBlank mark = false) :
    ∀ c ∈ mark :: paddedNat width n, Text.isBlank c = false :=
  List.forall_mem_cons.mpr ⟨h, fun c hc => isBlank_of_isDigit (isDigit_paddedNat c hc)⟩

/-! ### Fields -/

/-- Digits are taken up to the limit, or up to another character. -/
theorem takeDigits?_append {limit : Nat} {digits rest : List Char}
    (hdigits : ∀ c ∈ digits, c.isDigit = true) (hlimit : digits.length ≤ limit)
    (hrest : digits.length = limit ∨ ∀ c ∈ rest.head?, c.isDigit = false) :
    takeDigits? limit (digits ++ rest) = (readDigits? digits).map fun n => (n, rest) := by
  have hbehind : (rest.take (limit - digits.length)).takeWhile Char.isDigit = [] := by
    cases rest with
    | nil => rw [List.take_nil, List.takeWhile_nil]
    | cons c rest =>
      rcases hrest with hlength | hc
      · rw [hlength, Nat.sub_self, List.take_zero, List.takeWhile_nil]
      · cases limit - digits.length with
        | zero => rw [List.take_zero, List.takeWhile_nil]
        | succ n => exact List.takeWhile_cons_of_neg (Bool.eq_false_iff.mp (hc c rfl))
  have htaken : ((digits ++ rest).take limit).takeWhile Char.isDigit = digits := by
    rw [List.take_append, List.take_of_length_le hlimit, List.takeWhile_append_of_pos hdigits,
      hbehind, List.append_nil]
  unfold takeDigits?
  simp only [htaken, List.drop_left]

namespace PatternField

/-- **Two digits are read as their number**, whatever stands behind them. -/
theorem read?_short {n : Nat} (h : n < 100) (rest : List Char) :
    short.read? (paddedNat 2 n ++ rest) = some ([(n : Int)], rest) := by
  have hlength : (paddedNat 2 n).length = 2 := length_paddedNat (by decide) h
  show (takeDigits? 2 (Text.trimLeft _)).map _ = _
  rw [trimLeft_paddedNat, takeDigits?_append isDigit_paddedNat hlength.le (.inl hlength),
    readDigits?_paddedNat]
  rfl

theorem readYear?_of_digit {cs : List Char} (h : ∀ c ∈ cs.head?, c.isDigit = true) :
    readYear? cs = (takeDigits? 4 cs).map fun (n, rest) => ((n : Int), rest) := by
  unfold readYear?
  split
  · exact absurd (h '-' rfl) (by decide)
  · exact absurd (h '+' rfl) (by decide)
  · rfl

/-- **A year is read back**, in front of a hyphen. -/
theorem readYear?_yearText (year : Int) (rest : List Char) :
    readYear? (Date.yearText year ++ '-' :: rest) = some (year, '-' :: rest) := by
  have htaken : ∀ limit, (paddedNat 4 year.natAbs).length ≤ limit →
      takeDigits? limit (paddedNat 4 year.natAbs ++ '-' :: rest) =
        some (year.natAbs, '-' :: rest) := by
    intro limit hlimit
    have hhyphen : ∀ c ∈ ('-' :: rest).head?, c.isDigit = false := by
      rintro c ⟨⟩
      rfl
    rw [takeDigits?_append isDigit_paddedNat hlimit (.inr hhyphen), readDigits?_paddedNat]
    rfl
  -- behind a sign the limit is the length of the text, hyphen and rest included
  have hlong := htaken (paddedNat 4 year.natAbs ++ '-' :: rest).length
    (List.prefix_append _ _).length_le
  unfold Date.yearText
  simp only
  split_ifs with hnegative hbig
  · refine (congrArg (Option.map _) hlong).trans ?_
    exact congrArg (fun y => some (y, '-' :: rest)) (by omega)
  · refine (congrArg (Option.map _) hlong).trans ?_
    exact congrArg (fun y => some (y, '-' :: rest)) (by omega)
  · have hlength : (paddedNat 4 year.natAbs).length = 4 :=
      length_paddedNat (by decide) (by omega)
    rw [readYear?_of_digit head_paddedNat, htaken 4 hlength.le, Option.map_some]
    exact congrArg (fun y => some (y, '-' :: rest)) (by omega)

end PatternField

theorem Date.isBlank_yearText {year : Int} :
    ∀ c ∈ yearText year, Text.isBlank c = false := by
  have hdigits : ∀ c ∈ paddedNat 4 year.natAbs, Text.isBlank c = false := fun c hc =>
    isBlank_of_isDigit (isDigit_paddedNat c hc)
  unfold yearText
  simp only
  split_ifs
  · exact List.forall_mem_cons.mpr ⟨rfl, hdigits⟩
  · exact List.forall_mem_cons.mpr ⟨rfl, hdigits⟩
  · exact hdigits

theorem Date.yearText_ne_nil {year : Int} : yearText year ≠ [] := by
  unfold yearText
  simp only
  split_ifs
  · exact List.cons_ne_nil _ _
  · exact List.cons_ne_nil _ _
  · exact paddedNat_ne_nil

namespace PatternField

theorem read?_year (year : Int) (rest : List Char) :
    PatternField.year.read? (Date.yearText year ++ '-' :: rest) = some ([year], '-' :: rest) := by
  have hblank : Text.trimLeft (Date.yearText year ++ '-' :: rest) =
      Date.yearText year ++ '-' :: rest := by
    obtain ⟨c, digits, hyear⟩ := List.exists_cons_of_ne_nil (@Date.yearText_ne_nil year)
    refine Text.trimLeft_eq_self fun d hd => ?_
    rw [hyear] at hd
    cases hd
    exact Date.isBlank_yearText c (hyear ▸ List.mem_cons_self)
  show (readYear? (Text.trimLeft _)).map _ = _
  rw [hblank, readYear?_yearText]
  rfl

theorem read?_mark (c : Char) (rest : List Char) :
    (oneOf [c]).read? (c :: rest) = some ([], rest) :=
  if_pos (by simp)

end PatternField

/-- Two patterns are read one behind the other. -/
theorem readPattern?_append {second : List PatternField} {rest : List Char} {others : List Int} :
    ∀ {first : List PatternField} {cs middle : List Char} {numbers : List Int},
      readPattern? first cs = some (numbers, middle) →
      readPattern? second middle = some (others, rest) →
      readPattern? (first ++ second) cs = some (numbers ++ others, rest)
  | [], cs, middle, numbers, hfirst, hsecond => by
    cases hfirst
    exact hsecond
  | field :: fields, cs, middle, numbers, hfirst, hsecond => by
    simp only [readPattern?, bind, Option.bind_eq_some_iff] at hfirst
    obtain ⟨⟨own, left⟩, hown, ⟨more, _⟩, hmore, heq⟩ := hfirst
    cases heq
    rw [List.cons_append, readPattern?, hown, List.append_assoc]
    show (readPattern? (fields ++ second) left >>= _) = _
    rw [readPattern?_append hmore hsecond]
    rfl

theorem matchPattern?_of_readPattern? {pattern : List PatternField} {cs : List Char}
    {numbers : List Int} (h : readPattern? pattern cs = some (numbers, [])) :
    matchPattern? pattern cs = some numbers := by
  unfold matchPattern?
  rw [h]

/-! ### Dates -/

namespace Date

variable (d : Date)

theorem month_lt : d.month < 100 := by
  have hmonth := d.exists_day.2.1.2
  omega

theorem day_lt : d.day < 100 := by
  have hday := d.exists_day.2.2.2
  have hlength : daysInMonth d.year d.month ≤ 31 := by
    unfold daysInMonth
    split_ifs <;> decide
  omega

/-- The text of a date is read by the pattern of dates, whatever stands behind it. -/
theorem readPattern?_text (rest : List Char) :
    readPattern? pattern (d.text ++ rest) = some ([d.year, d.month, d.day], rest) := by
  unfold text pattern
  simp only [List.append_assoc, List.cons_append, readPattern?, PatternField.read?_year,
    PatternField.read?_mark, PatternField.read?_short d.month_lt,
    PatternField.read?_short d.day_lt, Option.bind_eq_bind, Option.bind_some]
  rfl

theorem ofYMD?_self : ofYMD? d.year d.month d.day = some d :=
  dif_pos d.exists_day

/-- **A date is read back.** -/
theorem read?_text : read? d.text = some d := by
  have hread := d.readPattern?_text []
  rw [List.append_nil] at hread
  unfold read?
  rw [matchPattern?_of_readPattern? hread]
  exact d.ofYMD?_self

theorem isBlank_text : ∀ c ∈ d.text, Text.isBlank c = false := by
  unfold text
  intro c hc
  rcases List.mem_append.mp hc with hc | hc
  · rcases List.mem_append.mp hc with hc | hc
    · exact isBlank_yearText c hc
    · exact isBlank_behind rfl c hc
  · exact isBlank_behind rfl c hc

theorem text_ne_nil : d.text ≠ [] :=
  List.append_ne_nil_of_right_ne_nil _ (List.cons_ne_nil _ _)

end Date

/-! ### Times -/

namespace Time

variable (t : Time)

/-- The time without the fraction of its second. -/
def wholeSeconds : Time where
  hour := t.hour
  minute := t.minute
  second := t.second
  nanosecond := 0
  exists_time := by
    obtain ⟨hhour, hminute, hsecond, -⟩ := t.exists_time
    exact ⟨hhour, hminute, hsecond, Nat.zero_le _⟩

theorem wholeSeconds_eq_self_iff : t.wholeSeconds = t ↔ t.nanosecond = 0 := by
  obtain ⟨hour, minute, second, nanosecond, h⟩ := t
  simp [wholeSeconds, eq_comm]

/-- The clock text of a time is read by the pattern with seconds, whatever stands behind it. -/
theorem readPattern?_clockText (rest : List Char) :
    readPattern? secondPattern (t.clockText ++ rest) =
      some ([(t.hour : Int), t.minute, t.second], rest) := by
  obtain ⟨hhour, hminute, hsecond, -⟩ := t.exists_time
  have hhour : t.hour < 100 := by omega
  have hminute : t.minute < 100 := by omega
  have hsecond : t.second < 100 := by omega
  unfold clockText secondPattern minutePattern
  simp only [List.append_assoc, List.cons_append, List.nil_append, readPattern?,
    PatternField.read?_mark, PatternField.read?_short hhour, PatternField.read?_short hminute,
    PatternField.read?_short hsecond, Option.bind_eq_bind, Option.bind_some]
  rfl

theorem ofNumbers?_clock :
    ofNumbers? [(t.hour : Int), t.minute, t.second] = some t.wholeSeconds :=
  dif_pos t.wholeSeconds.exists_time

/-- **A time is read back**, without the fraction of its second. -/
theorem read?_clockText : read? t.clockText = some t.wholeSeconds := by
  have hread := t.readPattern?_clockText []
  rw [List.append_nil] at hread
  unfold read?
  rw [List.findSome?_cons, matchPattern?_of_readPattern? hread, Option.bind_some,
    ofNumbers?_clock]

theorem isBlank_clockText : ∀ c ∈ t.clockText, Text.isBlank c = false := by
  unfold clockText
  intro c hc
  rcases List.mem_append.mp hc with hc | hc
  · rcases List.mem_append.mp hc with hc | hc
    · exact isBlank_of_isDigit (isDigit_paddedNat c hc)
    · exact isBlank_behind rfl c hc
  · exact isBlank_behind rfl c hc

theorem clockText_ne_nil : t.clockText ≠ [] :=
  List.append_ne_nil_of_right_ne_nil _ (List.cons_ne_nil _ _)

variable {t}

/-- A time in front of its numbers has no fraction. -/
theorem wholeSeconds_of_ofNumbers? {numbers : List Int} (h : ofNumbers? numbers = some t) :
    t.wholeSeconds = t := by
  have hwhole : ∀ {hour minute second : Nat}, ofHMSN? hour minute second 0 = some t →
      t.wholeSeconds = t := by
    intro hour minute second h
    unfold ofHMSN? at h
    split_ifs at h
    cases h
    rfl
  unfold ofNumbers? at h
  split at h
  · exact hwhole h
  · exact hwhole h
  · cases h

theorem wholeSeconds_of_read? {cs : List Char} (h : read? cs = some t) : t.wholeSeconds = t := by
  obtain ⟨pattern, -, hpattern⟩ := List.exists_of_findSome?_eq_some h
  obtain ⟨numbers, -, hnumbers⟩ := Option.bind_eq_some_iff.mp hpattern
  exact wholeSeconds_of_ofNumbers? hnumbers

end Time

/-! ### Timestamps -/

namespace Timestamp

variable (t : Timestamp)

/-- The timestamp without the fraction of its second. -/
def wholeSeconds : Timestamp :=
  ⟨t.date, t.time.wholeSeconds⟩

theorem wholeSeconds_eq_self_iff : t.wholeSeconds = t ↔ t.time.nanosecond = 0 := by
  rw [← t.time.wholeSeconds_eq_self_iff]
  obtain ⟨date, time⟩ := t
  simp [wholeSeconds]

theorem readPattern?_clockText :
    readPattern? (Date.pattern ++ [.gap] ++ Time.secondPattern) t.clockText =
      some ([t.date.year, t.date.month, t.date.day, t.time.hour, t.time.minute, t.time.second],
        []) := by
  have hdate := t.date.readPattern?_text (' ' :: t.time.clockText)
  have hgap : readPattern? [.gap] (' ' :: t.time.clockText) = some ([], t.time.clockText) := by
    have hclock : Text.trimLeft t.time.clockText = t.time.clockText :=
      Text.dropWhile_isBlank_eq_self t.time.isBlank_clockText
    show some ([], Text.trimLeft t.time.clockText) = _
    rw [hclock]
  have hclock := t.time.readPattern?_clockText []
  rw [List.append_nil] at hclock
  exact readPattern?_append (readPattern?_append hdate hgap) hclock

/-- **A timestamp is read back**, without the fraction of its second. -/
theorem read?_clockText : read? t.clockText = some t.wholeSeconds := by
  have hnumbers : ofNumbers? [t.date.year, t.date.month, t.date.day, t.time.hour, t.time.minute,
      t.time.second] = some t.wholeSeconds := by
    show (Date.ofYMD? t.date.year t.date.month t.date.day >>= fun date =>
      Time.ofNumbers? [(t.time.hour : Int), t.time.minute, t.time.second] >>= fun time =>
        some (Timestamp.mk date time)) = _
    rw [t.date.ofYMD?_self, t.time.ofNumbers?_clock]
    rfl
  unfold read? localPatterns
  rw [List.findSome?_cons, matchPattern?_of_readPattern? t.readPattern?_clockText,
    Option.bind_some, hnumbers]
  rfl

theorem trim_clockText : Text.trim t.clockText = t.clockText := by
  have hwords := Text.trim_words [' '] t.date.isBlank_text t.time.isBlank_clockText
    t.date.text_ne_nil t.time.clockText_ne_nil
  rwa [List.append_assoc] at hwords

variable {t}

/-- **Only the Internet form has a fraction.** -/
theorem wholeSeconds_of_read? {cs : List Char} (h : read? cs = some t) :
    t.wholeSeconds = t ∨ readInternet? cs = some t := by
  rcases (Option.orElse_eq_some _ _ _).mp h with hlocal | ⟨-, hinternet⟩
  · left
    obtain ⟨pattern, -, hpattern⟩ := List.exists_of_findSome?_eq_some hlocal
    obtain ⟨numbers, -, hnumbers⟩ := Option.bind_eq_some_iff.mp hpattern
    unfold ofNumbers? at hnumbers
    split at hnumbers
    · simp only [bind, Option.bind_eq_some_iff] at hnumbers
      obtain ⟨date, -, time, htime, heq⟩ := hnumbers
      cases heq
      rw [wholeSeconds, Time.wholeSeconds_of_ofNumbers? htime]
    · cases hnumbers
  · exact Or.inr hinternet

end Timestamp

/-! ### Full texts -/

namespace Time

end Time

end RuleFilter
