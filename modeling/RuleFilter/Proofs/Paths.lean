import RuleFilter.Proofs.Quoting

/-! # Paths

Where no list of fields is given, a field is written into the text only if it is a path. Paths are
tested segment by segment, but they have a grammar that reads from left to right (`Word`, `Joined`):
the test accepts just the paths of this grammar, and their words are the segments (`isPath_iff`,
`segments_of_joined`). A word holds neither a dot nor a mark of any dialect, so quoting a path only
puts a mark at both ends of each word (`quotePath_of_joined`). -/

namespace RuleFilter

/-! ### Words -/

namespace Identifier

/-- The letters of ASCII. -/
def IsLetter (c : Char) : Prop :=
  ('a' ≤ c ∧ c ≤ 'z') ∨ ('A' ≤ c ∧ c ≤ 'Z')

/-- The digits of ASCII. -/
def IsDigit (c : Char) : Prop :=
  '0' ≤ c ∧ c ≤ '9'

/-- A letter or underscore, and then any letters, digits and underscores. -/
inductive Word : List Char → Prop where
  | intro {c : Char} {rest : List Char} (first : IsLetter c ∨ c = '_')
      (others : ∀ d ∈ rest, IsLetter d ∨ IsDigit d ∨ d = '_') : Word (c :: rest)

theorem isAlpha_iff {c : Char} : c.isAlpha = true ↔ IsLetter c := by
  have hlower : c.isLower = (decide ('a' ≤ c) && decide (c ≤ 'z')) := rfl
  have hupper : c.isUpper = decide ('A' ≤ c ∧ c ≤ 'Z') := rfl
  have halpha : c.isAlpha = (c.isUpper || c.isLower) := rfl
  simp [IsLetter, halpha, hlower, hupper, or_comm]

theorem isWordStart_iff {c : Char} : isWordStart c = true ↔ IsLetter c ∨ c = '_' := by
  simp [isWordStart, isAlpha_iff]

theorem isWordPart_iff {c : Char} :
    isWordPart c = true ↔ IsLetter c ∨ IsDigit c ∨ c = '_' := by
  have hdigit : c.isDigit = (decide ('0' ≤ c) && decide (c ≤ '9')) := rfl
  have halphanum : c.isAlphanum = (c.isAlpha || c.isDigit) := rfl
  simp [isWordPart, IsDigit, halphanum, isAlpha_iff, hdigit, or_assoc]

theorem isWord_iff {cs : List Char} : isWord cs = true ↔ Word cs := by
  constructor
  · intro h
    cases cs with
    | nil => cases h
    | cons c rest =>
      rw [isWord, Bool.and_eq_true, List.all_eq_true] at h
      exact .intro (isWordStart_iff.mp h.1) fun d hd => isWordPart_iff.mp (h.2 d hd)
  · rintro ⟨first, others⟩
    rw [isWord, Bool.and_eq_true, List.all_eq_true]
    exact ⟨isWordStart_iff.mpr first, fun d hd => isWordPart_iff.mpr (others d hd)⟩

/-- Characters that stand in no word, such as the dot and the marks of the dialects. -/
theorem Word.not_mem {cs : List Char} {x : Char} (h : Word cs) (hx : isWordPart x = false) :
    x ∉ cs := by
  obtain ⟨first, others⟩ := h
  have hpart : ¬ (IsLetter x ∨ IsDigit x ∨ x = '_') := by
    rw [← isWordPart_iff, hx]
    exact Bool.false_ne_true
  intro hmem
  rcases List.mem_cons.mp hmem with rfl | hmem
  · exact hpart (first.imp id .inr)
  · exact hpart (others x hmem)

/-! ### Words joined by dots -/

/-- Words, one or more, are joined by single dots. -/
inductive Joined : List (List Char) → List Char → Prop where
  | one {w : List Char} (word : Word w) : Joined [w] w
  | more {w : List Char} {words : List (List Char)} {cs : List Char} (word : Word w)
      (rest : Joined words cs) : Joined (w :: words) (w ++ '.' :: cs)

theorem Joined.ne_nil {words : List (List Char)} {cs : List Char} (h : Joined words cs) :
    words ≠ [] := by
  cases h <;> exact List.cons_ne_nil _ _

theorem Joined.word {words : List (List Char)} {cs : List Char} (h : Joined words cs) :
    ∀ w ∈ words, Word w := by
  induction h with
  | one word => exact List.forall_mem_singleton.mpr word
  | more word _ ih => exact List.forall_mem_cons.mpr ⟨word, ih⟩

theorem Joined.eq_intercalate {words : List (List Char)} {cs : List Char} (h : Joined words cs) :
    cs = List.intercalate ['.'] words := by
  induction h with
  | one => rw [List.intercalate_singleton]
  | more _ rest ih =>
    rw [List.intercalate_cons_of_ne_nil rest.ne_nil, ← ih, List.append_assoc]
    rfl

theorem joined_intercalate : ∀ {words : List (List Char)}, words ≠ [] → (∀ w ∈ words, Word w) →
    Joined words (List.intercalate ['.'] words)
  | [w], _, h => by
    rw [List.intercalate_singleton]
    exact .one (h w List.mem_cons_self)
  | w :: second :: rest, _, h => by
    obtain ⟨hword, hrest⟩ := List.forall_mem_cons.mp h
    rw [List.intercalate_cons_cons, List.append_assoc]
    exact .more hword (joined_intercalate (List.cons_ne_nil _ _) hrest)

/-- The words are found again, since none of them holds a dot. -/
theorem segments_of_joined {words : List (List Char)} {path : String}
    (h : Joined words path.toList) : segments path = words := by
  rw [segments, h.eq_intercalate]
  exact List.splitOn_intercalate '.' (fun w hw => (h.word w hw).not_mem (by decide)) h.ne_nil

theorem isPath_iff {path : String} :
    isPath path = true ↔ ∃ words, Joined words path.toList := by
  constructor
  · intro h
    rw [isPath, List.all_eq_true] at h
    have hjoined := joined_intercalate (List.splitOn_ne_nil '.' path.toList) fun w hw =>
      isWord_iff.mp (h w hw)
    rw [List.intercalate_splitOn] at hjoined
    exact ⟨_, hjoined⟩
  · rintro ⟨words, h⟩
    rw [isPath, segments_of_joined h, List.all_eq_true]
    exact fun w hw => isWord_iff.mpr (h.word w hw)

end Identifier

/-! ### Words in quotes -/

theorem Text.doubled_of_not_mem {mark : Char} : ∀ {cs : List Char}, mark ∉ cs →
    Text.doubled mark cs = cs
  | [], _ => rfl
  | c :: rest, h => by
    obtain ⟨hne, hrest⟩ := List.ne_and_not_mem_of_not_mem_cons h
    have ih := Text.doubled_of_not_mem hrest
    rw [Text.doubled] at ih ⊢
    rw [List.flatMap_cons, if_neg hne.symm, ih, List.singleton_append]

namespace Dialect

open Identifier

variable (d : Dialect)

theorem isWordPart_quoteMark : isWordPart d.quoteMark = false := by
  cases d <;> decide

/-- A word between two marks. -/
def wrapped (w : List Char) : List Char :=
  d.quoteMark :: w ++ [d.quoteMark]

variable {d}

theorem quoteName_of_word {w : List Char} (h : Word w) : d.quoteName w = d.wrapped w := by
  rw [quoteName, Text.quoted, Text.doubled_of_not_mem (h.not_mem d.isWordPart_quoteMark), wrapped]

theorem quotePath_of_joined {words : List (List Char)} {path : String}
    (h : Joined words path.toList) :
    d.quotePath path = List.intercalate ['.'] (words.map d.wrapped) := by
  rw [quotePath, segments_of_joined h]
  exact congrArg _ (List.map_congr_left fun w hw => quoteName_of_word (h.word w hw))

theorem count_wrapped {w : List Char} (h : Word w) : (d.wrapped w).count d.quoteMark = 2 := by
  have hnone : w.count d.quoteMark = 0 :=
    List.count_eq_zero.mpr (h.not_mem d.isWordPart_quoteMark)
  simp [wrapped, hnone]

theorem filter_wrapped {w : List Char} (h : Word w) :
    (d.wrapped w).filter (· != d.quoteMark) = w := by
  have hall : ∀ c ∈ w, (c != d.quoteMark) = true := by
    intro c hc
    exact bne_iff_ne.mpr fun heq => h.not_mem d.isWordPart_quoteMark (heq ▸ hc)
  simp [wrapped, List.filter_eq_self.mpr hall]

/-- Quoted words hold two marks each, and these are all that tells them from the path. -/
theorem quoted_of_joined {words : List (List Char)} {cs : List Char} (h : Joined words cs) :
    (List.intercalate ['.'] (words.map d.wrapped)).count d.quoteMark = 2 * words.length ∧
      (List.intercalate ['.'] (words.map d.wrapped)).filter (· != d.quoteMark) = cs := by
  induction h with
  | one word =>
    rw [List.map_singleton, List.intercalate_singleton]
    exact ⟨count_wrapped word, filter_wrapped word⟩
  | @more w words cs word rest ih =>
    have hne : words.map d.wrapped ≠ [] := mt List.map_eq_nil_iff.mp rest.ne_nil
    have hcount : ['.'].count d.quoteMark = 0 := by cases d <;> rfl
    have hfilter : ['.'].filter (· != d.quoteMark) = ['.'] := by cases d <;> rfl
    rw [List.map_cons, List.intercalate_cons_of_ne_nil hne]
    constructor
    · rw [List.count_append, List.count_append, count_wrapped word, hcount, ih.1,
        List.length_cons]
      omega
    · rw [List.filter_append, List.filter_append, filter_wrapped word, hfilter, ih.2,
        List.append_assoc, List.singleton_append]

end Dialect

/-- **The test of paths accepts just its grammar, and quoting changes nothing inside a path.** A
text is a path if and only if it is words joined by single dots. These words are its segments, and
in every dialect the quoted path is the words, each between two marks, joined by dots: there are two
marks for each word, so none is doubled, and without the marks the path is left. -/
theorem Identifier.isPath_grammar (path : String) :
    (isPath path = true ↔ ∃ words, Joined words path.toList) ∧
    ∀ words, Joined words path.toList → segments path = words ∧ ∀ d : Dialect,
      d.quotePath path =
        List.intercalate ['.'] (words.map fun w => d.quoteMark :: w ++ [d.quoteMark]) ∧
      (d.quotePath path).count d.quoteMark = 2 * words.length ∧
      (d.quotePath path).filter (· != d.quoteMark) = path.toList := by
  refine ⟨isPath_iff, fun words h => ⟨segments_of_joined h, fun d => ?_⟩⟩
  have hquoted : d.quotePath path = List.intercalate ['.'] (words.map d.wrapped) :=
    Dialect.quotePath_of_joined h
  refine ⟨hquoted, ?_⟩
  rw [hquoted]
  exact Dialect.quoted_of_joined h

/-- Words of one character, with a digit and with underscores alone. -/
theorem Identifier.isPath_grammar_threeWords :
    Joined [['b'], ['X', '2'], ['_', '_']] "b.X2.__".toList ∧ isPath "b.X2.__" = true ∧
      Dialect.mysql.quotePath "b.X2.__" = "\x60b\x60.\x60X2\x60.\x60__\x60".toList ∧
      (Dialect.postgres.quotePath "b.X2.__").filter (· != '"') = "b.X2.__".toList := by
  have hwords : Joined [['b'], ['X', '2'], ['_', '_']] "b.X2.__".toList :=
    .more (isWord_iff.mp rfl) (.more (isWord_iff.mp rfl) (.one (isWord_iff.mp rfl)))
  obtain ⟨hpath, hquoted⟩ := isPath_grammar "b.X2.__"
  obtain ⟨-, hdialects⟩ := hquoted _ hwords
  exact ⟨hwords, hpath.mpr ⟨_, hwords⟩, (hdialects .mysql).1, (hdialects .postgres).2.2⟩

end RuleFilter
