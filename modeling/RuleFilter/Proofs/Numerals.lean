import RuleFilter.Json.Printer
import RuleFilter.Json.Token
import RuleFilter.Text.Blank
import Mathlib.Data.List.TakeWhile
import Mathlib.Tactic.SplitIfs

/-! # The texts of numbers

The text of an integer is read as that integer (`readInt?_toString`). The text of a double has a
point or an exponent behind its first digits (`DecimalText`), unless it is `null`. What stands
behind the sign and the digits in front of a text, `pastDigits`, tells the three apart: nothing, a
point or an `e`, and a letter. -/

namespace RuleFilter

/-! ### Characters of numbers -/

theorem isWordChar_of_isDigit {c : Char} (h : c.isDigit = true) : Json.isWordChar c = true := by
  simp [Json.isWordChar, Char.isAlphanum, h]

theorem isBlank_of_isWordChar {c : Char} (h : Json.isWordChar c = true) :
    Text.isBlank c = false := by
  have hprintable : ∀ {low high : Nat}, 48 ≤ low → high ≤ 122 → low ≤ c.toNat ∧ c.toNat ≤ high →
      Text.isBlank c = false := by
    intro low high hlow hhigh hc
    simp [Text.isBlank]
    omega
  -- the classes of characters of a word are ranges of numbers, and three signs
  delta Json.isWordChar Char.isAlphanum Char.isAlpha Char.isUpper Char.isLower Char.isDigit at h
  simp only [Bool.or_eq_true, Bool.and_eq_true, decide_eq_true_eq, beq_iff_eq, ge_iff_le,
    UInt32.le_iff_toNat_le] at h
  rcases h with ((((h | h) | h) | rfl) | rfl) | rfl
  · exact hprintable (by decide) (by decide) h
  · exact hprintable (by decide) (by decide) h
  · exact hprintable (by decide) (by decide) h
  all_goals decide

theorem toLower_of_isDigit {c : Char} (h : c.isDigit = true) : c.toLower = c := by
  have hbounds := Char.isDigit_iff_toNat.mp h
  refine dif_neg fun hupper => ?_
  have hlow : 'A'.toNat ≤ c.toNat := UInt32.le_iff_toNat_le.mp hupper.1
  simp at hbounds hlow
  omega

/-! ### Signs and digits -/

/-- A text that does not begin with a sign. -/
theorem splitSign_eq_self {cs : List Char} (h : ∀ c ∈ cs.head?, c ≠ '-' ∧ c ≠ '+') :
    splitSign cs = (false, cs) := by
  unfold splitSign
  split
  · exact absurd rfl (h '-' rfl).1
  · exact absurd rfl (h '+' rfl).2
  · rfl

/-- What stands behind the sign and the digits in front of a text. -/
def pastDigits (cs : List Char) : List Char :=
  (splitSign cs).2.dropWhile Char.isDigit

/-- A minus sign, or nothing. -/
def minus (negative : Bool) : List Char :=
  if negative then ['-'] else []

/-- A character that neither is a sign nor continues a number. -/
def Ends (c : Char) : Prop :=
  c.isDigit = false ∧ c ≠ '-' ∧ c ≠ '+'

instance (c : Char) : Decidable (Ends c) :=
  inferInstanceAs (Decidable (_ ∧ _))

theorem ne_sign_of_isDigit {c : Char} (h : c.isDigit = true) : c ≠ '-' ∧ c ≠ '+' := by
  constructor
  · rintro rfl
    exact absurd h (by decide)
  · rintro rfl
    exact absurd h (by decide)

theorem splitSign_minus {negative : Bool} {digits tail : List Char}
    (hdigits : ∀ c ∈ digits, c.isDigit = true) (htail : ∀ c ∈ tail.head?, Ends c) :
    splitSign (minus negative ++ (digits ++ tail)) = (negative, digits ++ tail) := by
  cases negative with
  | true => rfl
  | false =>
    refine splitSign_eq_self fun c hc => ?_
    cases digits with
    | nil => exact (htail c hc).2
    | cons d rest =>
      cases hc
      exact ne_sign_of_isDigit (hdigits c List.mem_cons_self)

/-- Digits end where something else follows. -/
theorem digits_append {cs tail : List Char} (hcs : ∀ c ∈ cs, c.isDigit = true)
    (htail : ∀ c ∈ tail.head?, c.isDigit = false) :
    (cs ++ tail).takeWhile Char.isDigit = cs ∧ (cs ++ tail).dropWhile Char.isDigit = tail := by
  rw [List.takeWhile_append_of_pos hcs, List.dropWhile_append_of_pos hcs]
  cases tail with
  | nil => exact ⟨List.append_nil cs, rfl⟩
  | cons c tail =>
    rw [List.takeWhile_cons, List.dropWhile_cons, htail c rfl]
    exact ⟨List.append_nil cs, rfl⟩

theorem pastDigits_minus {negative : Bool} {digits tail : List Char}
    (hdigits : ∀ c ∈ digits, c.isDigit = true) (htail : ∀ c ∈ tail.head?, Ends c) :
    pastDigits (minus negative ++ (digits ++ tail)) = tail := by
  unfold pastDigits
  rw [splitSign_minus hdigits htail]
  exact (digits_append hdigits fun c hc => (htail c hc).1).2

/-! ### Integers -/

theorem isDigit_toDigits {n : Nat} : ∀ c ∈ Nat.toDigits 10 n, c.isDigit = true :=
  fun _ hc => Nat.isDigit_of_mem_toDigits (by decide) (by decide) hc

theorem isEmpty_toDigits (n : Nat) : (Nat.toDigits 10 n).isEmpty = false :=
  List.isEmpty_eq_false_iff.mpr Nat.toDigits_ne_nil

theorem readDigits?_toDigits (n : Nat) : readDigits? (Nat.toDigits 10 n) = some n := by
  have hall : (Nat.toDigits 10 n).all Char.isDigit = true := List.all_eq_true.mpr isDigit_toDigits
  unfold readDigits? digitsValue
  rw [hall, isEmpty_toDigits, Nat.ofDigitChars_ten_toDigits]
  rfl

/-- A text with something behind its digits is no integer. -/
theorem pastDigits_of_readInt? {cs : List Char} {n : Int} (h : readInt? cs = some n) :
    pastDigits cs = [] := by
  unfold readInt? at h
  simp only [Option.map_eq_some_iff] at h
  obtain ⟨k, hk, -⟩ := h
  unfold readDigits? at hk
  split_ifs at hk with hdigits
  simp only [Bool.and_eq_true, List.all_eq_true] at hdigits
  exact List.dropWhile_eq_nil_iff.mpr hdigits.2

/-- The text of an integer: a minus sign if it is negative, and digits. -/
theorem toList_toString (n : Int) :
    (toString n).toList = minus (n < 0) ++ (Nat.toDigits 10 n.natAbs ++ []) := by
  rw [List.append_nil, Int.toString_eq_repr, Int.repr_eq_if]
  unfold minus
  simp only [decide_eq_true_eq]
  split_ifs with hnonneg hneg hneg
  · omega
  · rw [Nat.toList_repr, List.nil_append, show n.toNat = n.natAbs by omega]
  · rw [String.toList_append, Nat.toList_repr, show (-n).toNat = n.natAbs by omega]
    rfl
  · omega

/-- **The text of an integer is read as the integer.** -/
theorem readInt?_toString (n : Int) : readInt? (toString n).toList = some n := by
  have hsign : signed (decide (n < 0)) n.natAbs = n := by
    unfold signed
    simp only [decide_eq_true_eq]
    split_ifs <;> omega
  unfold readInt?
  rw [toList_toString, splitSign_minus isDigit_toDigits (by simp)]
  simp only
  rw [List.append_nil, readDigits?_toDigits, Option.map_some, hsign]

theorem toString_injective {n m : Int} (h : toString n = toString m) : n = m := by
  have hread := readInt?_toString n
  rw [h, readInt?_toString m] at hread
  exact (Option.some.inj hread).symm

/-! ### Doubles -/

/-- A text of digits, a point or the mark of an exponent behind them, and the rest of a word. A
point or the sign of the exponent is in it. -/
structure DecimalText (whole : List Char) (mark : Char) (rest : List Char) : Prop where
  digits : ∀ c ∈ whole, c.isDigit = true
  marked : mark = '.' ∨ mark = 'e'
  word : ∀ c ∈ rest, Json.isWordChar c = true
  symbol : ∃ c ∈ mark :: rest, c ∈ ['.', '+', '-']

namespace DecimalText

variable {whole rest : List Char} {mark : Char}

theorem ends (h : DecimalText whole mark rest) : Ends mark := by
  rcases h.marked with rfl | rfl <;> decide

theorem isWordChar (h : DecimalText whole mark rest) :
    ∀ c ∈ whole ++ mark :: rest, Json.isWordChar c = true := by
  intro c hc
  rcases List.mem_append.mp hc with hc | hc
  · exact isWordChar_of_isDigit (h.digits c hc)
  · rcases List.mem_cons.mp hc with rfl | hc
    · rcases h.marked with rfl | rfl <;> rfl
    · exact h.word c hc

end DecimalText

namespace Binary64

theorem isDigit_shortestDigits {tie : Tie} {x : Binary64} :
    ∀ c ∈ (x.shortestDigits tie).digits, c.isDigit = true := by
  unfold shortestDigits
  split_ifs with hzero
  · exact List.forall_mem_singleton.mpr rfl
  · intro c hc
    have hmem := (List.dropWhile_sublist _).mem (List.mem_reverse.mp hc)
    exact isDigit_toDigits c (List.mem_reverse.mp hmem)

theorem positional_eq {d : Digits} (h : ∀ c ∈ d.digits, c.isDigit = true) :
    ∃ whole mark rest, d.positional document.wholeMark = whole ++ mark :: rest ∧
      DecimalText whole mark rest := by
  have hzero : ∀ n, ∀ c ∈ List.replicate n '0', c.isDigit = true := by
    intro n c hc
    rw [List.eq_of_mem_replicate hc]
    rfl
  unfold Digits.positional
  simp only
  split_ifs with hfront hbehind
  · refine ⟨['0'], '.', _, rfl, List.forall_mem_singleton.mpr rfl, .inl rfl, fun c hc => ?_,
      ⟨'.', by simp⟩⟩
    rcases List.mem_append.mp hc with hc | hc
    · exact isWordChar_of_isDigit (hzero _ c hc)
    · exact isWordChar_of_isDigit (h c hc)
  · refine ⟨_, '.', ['0'], rfl, fun c hc => ?_, .inl rfl, List.forall_mem_singleton.mpr rfl,
      ⟨'.', by simp⟩⟩
    rcases List.mem_append.mp hc with hc | hc
    · exact h c hc
    · exact hzero _ c hc
  · exact ⟨_, '.', _, rfl, fun c hc => h c (List.mem_of_mem_take hc), .inl rfl,
      fun c hc => isWordChar_of_isDigit (h c (List.mem_of_mem_drop hc)), ⟨'.', by simp⟩⟩

/-- The sign and the digits of an exponent. -/
def exponentText (power : Int) : List Char :=
  (if power < 0 then '-' else '+') :: Nat.toDigits 10 power.natAbs

theorem isWordChar_exponentText {power : Int} :
    ∀ c ∈ exponentText power, Json.isWordChar c = true := by
  refine List.forall_mem_cons.mpr ⟨?_, fun c hc => isWordChar_of_isDigit (isDigit_toDigits c hc)⟩
  split_ifs <;> decide

theorem sign_mem_exponentText (power : Int) : ∃ c ∈ exponentText power, c ∈ ['.', '+', '-'] := by
  refine ⟨_, List.mem_cons_self, ?_⟩
  split_ifs <;> decide

theorem scientific_eq {d : Digits} (h : ∀ c ∈ d.digits, c.isDigit = true) :
    ∃ whole mark rest, d.scientific = whole ++ mark :: rest ∧ DecimalText whole mark rest := by
  have hfirst : ∀ c ∈ d.digits.take 1, c.isDigit = true := fun c hc => h c (List.mem_of_mem_take hc)
  have hothers : ∀ c ∈ d.digits.drop 1, c.isDigit = true :=
    fun c hc => h c (List.mem_of_mem_drop hc)
  unfold Digits.scientific
  simp only
  cases hrest : d.digits.drop 1 with
  | nil =>
    obtain ⟨c, hc, hsymbol⟩ := sign_mem_exponentText (d.point - 1)
    refine ⟨d.digits.take 1, 'e', exponentText (d.point - 1), ?_, hfirst, .inr rfl,
      isWordChar_exponentText, ⟨c, List.mem_cons_of_mem _ hc, hsymbol⟩⟩
    rw [List.isEmpty_nil, if_pos rfl, List.append_nil]
    rfl
  | cons c others =>
    rw [hrest] at hothers
    refine ⟨d.digits.take 1, '.', (c :: others) ++ 'e' :: exponentText (d.point - 1), ?_, hfirst,
      .inl rfl, fun c hc => ?_, ⟨'.', List.mem_cons_self, by decide⟩⟩
    · rw [List.isEmpty_cons, if_neg Bool.false_ne_true, List.append_assoc]
      rfl
    · rcases List.mem_append.mp hc with hc | hc
      · exact isWordChar_of_isDigit (hothers c hc)
      · rcases List.mem_cons.mp hc with rfl | hc
        · rfl
        · exact isWordChar_exponentText c hc

theorem isNaN_of_isFinite {x : Binary64} (h : x.isFinite = true) : x.isNaN = false := by
  unfold isFinite at h
  unfold isNaN
  simp only [decide_eq_true_eq, decide_eq_false_iff_not] at h ⊢
  omega

/-- The text of a finite double: its sign, and its digits in one of the two forms. -/
theorem write_of_isFinite {x : Binary64} (h : x.isFinite = true) :
    document.write x = minus x.isNegative ++
      if document.positional ((x.shortestDigits .toEven).point - 1) = true then
        (x.shortestDigits .toEven).positional document.wholeMark
      else (x.shortestDigits .toEven).scientific := by
  unfold Layout.write
  rw [isNaN_of_isFinite h, h]
  rfl

/-- **A double in a document has a sign or none, digits, and a point or an exponent.** -/
theorem write_document_eq {x : Binary64} (h : x.isFinite = true) :
    ∃ whole mark rest,
      document.write x = minus x.isNegative ++ (whole ++ mark :: rest) ∧
        DecimalText whole mark rest := by
  rw [write_of_isFinite h]
  split_ifs
  · obtain ⟨whole, mark, rest, heq, htext⟩ := positional_eq (isDigit_shortestDigits (x := x))
    exact ⟨whole, mark, rest, by rw [heq], htext⟩
  · obtain ⟨whole, mark, rest, heq, htext⟩ := scientific_eq (isDigit_shortestDigits (x := x))
    exact ⟨whole, mark, rest, by rw [heq], htext⟩

end Binary64

/-! ### Numbers -/

theorem isWordChar_minus {negative : Bool} : ∀ c ∈ minus negative, Json.isWordChar c = true :=
  List.all_eq_true.mp (by cases negative <;> rfl)

/-- The text of a number is one word. -/
theorem isWordChar_write (n : Number) : ∀ c ∈ n.write, Json.isWordChar c = true := by
  cases n with
  | int n =>
    intro c hc
    change c ∈ (toString n).toList at hc
    rw [toList_toString, List.append_nil] at hc
    rcases List.mem_append.mp hc with hc | hc
    · exact isWordChar_minus c hc
    · exact isWordChar_of_isDigit (isDigit_toDigits c hc)
  | float x =>
    unfold Number.write
    simp only
    split_ifs with hfinite
    · obtain ⟨whole, mark, rest, heq, htext⟩ := Binary64.write_document_eq hfinite
      rw [heq]
      intro c hc
      rcases List.mem_append.mp hc with hc | hc
      · exact isWordChar_minus c hc
      · exact htext.isWordChar c hc
    · exact List.all_eq_true.mp rfl

theorem pastDigits_int (n : Int) : pastDigits (toString n).toList = [] := by
  rw [toList_toString]
  exact pastDigits_minus isDigit_toDigits (by simp)

/-- Behind the digits of a double something stands, and no hyphen. -/
theorem pastDigits_float (x : Binary64) :
    ∃ c rest, pastDigits (Number.write (.float x)) = c :: rest ∧ c ≠ '-' := by
  unfold Number.write
  simp only
  split_ifs with hfinite
  · obtain ⟨whole, mark, rest, heq, htext⟩ := Binary64.write_document_eq hfinite
    have hmark := htext.ends
    refine ⟨mark, rest, ?_, hmark.2.1⟩
    rw [heq]
    exact pastDigits_minus htext.digits fun c hc => Option.some.inj hc ▸ hmark
  · exact ⟨'n', _, rfl, by decide⟩

end RuleFilter
