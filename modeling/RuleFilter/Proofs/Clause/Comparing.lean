import RuleFilter.Proofs.Clause.Spelling

/-! # Where a comparison ends

A comparison is a field, the words of an operator (`Comparison.words`) and a right-hand side, read
in this order (`Predicate.read?`). Read from left to right it is over with its last token: no
well-formed comparison begins another one (`Predicate.eq_of_prefix_tokens`), although `IS NULL` and
`IS NOT NULL` or `NOT IN` and `NOT LIKE` have words in common, a range has an `AND` of its own, and
a field may be spelled like any of these words. -/

namespace RuleFilter

open Clause

/-! ### No comparison begins another -/

theorem Comparison.mem_all (c : Comparison) : c ∈ Comparison.all := by
  cases c <;> decide

/-- The words of an operator do not begin those of another. -/
theorem Comparison.eq_of_prefix_words {c c' : Comparison}
    (h : c.words.map Token.word <+: c'.words.map Token.word) : c = c' := by
  have hall : ∀ d ∈ Comparison.all, ∀ d' ∈ Comparison.all,
      d.words.map Token.word <+: d'.words.map Token.word → d = d' := by
    decide +kernel
  exact hall c c.mem_all c' c'.mem_all h

namespace Operand

theorem eq_of_prefix_furtherNames : ∀ {ns ns' : List String},
    furtherNames ns <+: furtherNames ns' → ns = ns'
  | [], [], _ => rfl
  | [], n :: ns, h => by simp [furtherNames] at h
  | n :: ns, [], h => by simp [furtherNames] at h
  | n :: ns, n' :: ns', h => by
    simp only [furtherNames, List.cons_prefix_cons, Token.name.injEq, true_and] at h
    rw [h.1, eq_of_prefix_furtherNames h.2]

theorem eq_of_prefix_names : ∀ {ns ns' : List String}, names ns <+: names ns' → ns = ns'
  | [], [], _ => rfl
  | [], n :: ns, h => by simp [names] at h
  | n :: ns, [], h => by simp [names] at h
  | n :: ns, n' :: ns', h => by
    simp only [names, List.cons_prefix_cons, Token.name.injEq] at h
    rw [h.1, eq_of_prefix_furtherNames h.2]

/-- Only an empty right-hand side suits a null check. -/
theorem eq_none_of_suits_of_isNullCheck {α : Type} {c : Comparison} {o : Operand α}
    (hc : c.isNullCheck) (ho : o.suits c) : o = .none := by
  have hcases : c = .isNull ∨ c = .isNotNull := by
    cases c <;> simp_all [Comparison.isNullCheck]
  rcases hcases with rfl | rfl <;> cases o <;> first | rfl | cases ho

/-- A single reference does not suit a range. -/
theorem not_suits_single_of_isRange {α : Type} {c : Comparison} (hc : c.isRange) (a : α) :
    (single a).suits c = false := by
  have hcases : c = .between ∨ c = .notBetween := by
    cases c <;> simp_all [Comparison.isRange]
  rcases hcases with rfl | rfl <;> rfl

/-- Of two right-hand sides that suit one comparison, none begins the other. -/
theorem eq_of_prefix_tokens {c : Comparison} {o o' : Operand String} (ho : o.suits c)
    (ho' : o'.suits c) (h : o.tokens <+: o'.tokens) : o = o' := by
  cases o with
  | none => exact (eq_none_of_suits_of_isNullCheck ho ho').symm
  | blank =>
    cases o' with
    | blank => rfl
    | _ => simp [tokens] at h
  | single a =>
    cases o' with
    | single a' => simpa [tokens] using h
    | range low high =>
      rw [not_suits_single_of_isRange ho' a] at ho
      cases ho
    | _ => simp [tokens] at h
  | list ns =>
    cases o' with
    | list ns' =>
      simp only [tokens, List.cons_prefix_cons, true_and] at h
      rw [eq_of_prefix_names h]
    | _ => simp [tokens] at h
  | range low high =>
    cases o' with
    | range low' high' => simpa [tokens] using h
    | _ => simp [tokens] at h

end Operand

/-- **No well-formed comparison begins another one.** -/
theorem Predicate.eq_of_prefix_tokens {p q : Predicate String} (hp : p.isWellFormed)
    (hq : q.isWellFormed) (h : p.tokens <+: q.tokens) : p = q := by
  obtain ⟨field, c, o⟩ := p
  obtain ⟨field', c', o'⟩ := q
  simp only [isWellFormed, Bool.and_eq_true] at hp hq
  simp only [tokens, List.cons_append, List.cons_prefix_cons, Token.word.injEq] at h
  obtain ⟨rfl, h⟩ := h
  have hwords : c.words.map Token.word <+: c'.words.map Token.word ∨
      c'.words.map Token.word <+: c.words.map Token.word :=
    List.prefix_or_prefix_of_prefix ((List.prefix_append _ _).trans h) (List.prefix_append _ _)
  have hc : c = c' := by
    rcases hwords with hwords | hwords
    · exact Comparison.eq_of_prefix_words hwords
    · exact (Comparison.eq_of_prefix_words hwords).symm
  subst hc
  rw [List.prefix_append_right_inj] at h
  rw [Operand.eq_of_prefix_tokens hp.2 hq.2 h]

/-! ### Reading a comparison -/

namespace Operand

/-- Reads the names of a list behind its first one. -/
def furtherNames? : List Token → Option (List String)
  | [.closing] => some []
  | .comma :: .name n :: rest => (furtherNames? rest).map (n :: ·)
  | _ => Option.none

/-- Reads the names of a list. -/
def names? : List Token → Option (List String)
  | [.closing] => some []
  | .name n :: rest => (furtherNames? rest).map (n :: ·)
  | _ => Option.none

/-- Reads a right-hand side. -/
def read? : List Token → Option (Operand String)
  | [] => some .none
  | [.blank] => some .blank
  | [.name n] => some (.single n)
  | [.name low, .word w, .name high] => if w = "AND" then some (.range low high) else Option.none
  | .opening :: rest => (names? rest).map .list
  | _ => Option.none

theorem furtherNames?_eq_some_iff {ts : List Token} {ns : List String} :
    furtherNames? ts = some ns ↔ furtherNames ns = ts := by
  constructor
  · intro h
    fun_induction furtherNames? ts generalizing ns with
    | case1 =>
      cases h
      rfl
    | case2 n rest ih =>
      obtain ⟨ns', hrest, rfl⟩ := Option.map_eq_some_iff.mp h
      rw [furtherNames, ih hrest]
    | case3 ts _ _ => cases h
  · rintro rfl
    induction ns with
    | nil => rfl
    | cons n ns ih => rw [furtherNames, furtherNames?, ih, Option.map_some]

theorem names?_eq_some_iff {ts : List Token} {ns : List String} :
    names? ts = some ns ↔ names ns = ts := by
  constructor
  · intro h
    unfold names? at h
    split at h
    · cases h
      rfl
    · obtain ⟨ns', hrest, rfl⟩ := Option.map_eq_some_iff.mp h
      rw [names, furtherNames?_eq_some_iff.mp hrest]
    · cases h
  · rintro rfl
    cases ns with
    | nil => rfl
    | cons n ns => rw [names, names?, furtherNames?_eq_some_iff.mpr rfl, Option.map_some]

theorem read?_eq_some_iff {ts : List Token} {o : Operand String} :
    read? ts = some o ↔ o.tokens = ts := by
  constructor
  · intro h
    unfold read? at h
    split at h
    · cases h
      rfl
    · cases h
      rfl
    · cases h
      rfl
    · split_ifs at h with hw
      cases h
      rw [hw]
      rfl
    · obtain ⟨ns, hrest, rfl⟩ := Option.map_eq_some_iff.mp h
      rw [tokens, names?_eq_some_iff.mp hrest]
    · cases h
  · rintro rfl
    cases o with
    | list ns => rw [tokens, read?, names?_eq_some_iff.mpr rfl, Option.map_some]
    | _ => rfl

end Operand

namespace Predicate

/-- Reads what stands behind a field as one comparison of it. -/
def readAs? (field : String) (ts : List Token) (c : Comparison) : Option (Predicate String) :=
  ((ts.dropPrefix? (c.words.map Token.word)).bind Operand.read?).bind fun o =>
    Option.guard isWellFormed ⟨field, c, o⟩

/-- Reads a comparison. -/
def read? : List Token → Option (Predicate String)
  | .word field :: rest => Comparison.all.findSome? (readAs? field rest)
  | _ => none

theorem readAs?_eq_some_iff {field : String} {ts : List Token} {c : Comparison}
    {p : Predicate String} : readAs? field ts c = some p ↔
      p.isWellFormed ∧ p.comparison = c ∧ p.tokens = .word field :: ts := by
  simp only [readAs?, Option.bind_eq_some_iff, List.dropPrefix?_eq_some_iff, beq_iff_eq,
    Operand.read?_eq_some_iff, Option.guard_eq_some_iff]
  constructor
  · rintro ⟨o, ⟨right, ⟨_, rfl, rfl⟩, rfl⟩, rfl, hp⟩
    exact ⟨hp, rfl, rfl⟩
  · rintro ⟨hp, rfl, htokens⟩
    simp only [tokens, List.cons_append, List.cons.injEq, Token.word.injEq] at htokens
    obtain ⟨rfl, rfl⟩ := htokens
    exact ⟨p.operand, ⟨_, ⟨_, rfl, rfl⟩, rfl⟩, rfl, hp⟩

theorem tokens_of_read? {ts : List Token} {p : Predicate String} (h : read? ts = some p) :
    p.isWellFormed ∧ p.tokens = ts := by
  unfold read? at h
  split at h
  · obtain ⟨c, -, hc⟩ := List.exists_of_findSome?_eq_some h
    obtain ⟨hp, -, htokens⟩ := readAs?_eq_some_iff.mp hc
    exact ⟨hp, htokens⟩
  · cases h

/-- **A comparison is read just from its own tokens.** -/
theorem read?_eq_some_iff {ts : List Token} {p : Predicate String} :
    read? ts = some p ↔ p.isWellFormed ∧ p.tokens = ts := by
  constructor
  · exact tokens_of_read?
  · rintro ⟨hp, rfl⟩
    have hself : readAs? p.field (p.comparison.words.map .word ++ p.operand.tokens) p.comparison =
        some p := readAs?_eq_some_iff.mpr ⟨hp, rfl, rfl⟩
    have hsome : (read? p.tokens).isSome := by
      have hfound := Option.isSome_of_eq_some hself
      exact List.findSome?_isSome_iff.mpr ⟨p.comparison, p.comparison.mem_all, hfound⟩
    -- an operator that is tried earlier may be found, but not for another comparison
    obtain ⟨q, hq⟩ := Option.isSome_iff_exists.mp hsome
    obtain ⟨hwell, htokens⟩ := tokens_of_read? hq
    rw [hq, eq_of_prefix_tokens hwell hp (htokens ▸ List.prefix_rfl)]

end Predicate

end RuleFilter
