import RuleFilter.Calendar.Reader
import RuleFilter.Proofs.Numerals

/-! # What calendar patterns demand

A field leaves the end of the text it was read from, so a text that a pattern is read from has the
characters that the pattern names: no colon, no time and no timestamp. A date has its first hyphen
right behind the sign and the digits of its year (`Date.pastDigits_of_read?`). -/

namespace RuleFilter

/-! ### Fields -/

/-- The digits that are taken stand in front of what is left. -/
theorem takeDigits?_eq_some {limit n : Nat} {cs rest : List Char}
    (h : takeDigits? limit cs = some (n, rest)) :
    ∃ digits, (∀ c ∈ digits, c.isDigit = true) ∧ cs = digits ++ rest := by
  unfold takeDigits? at h
  simp only [Option.map_eq_some_iff, Prod.mk.injEq] at h
  obtain ⟨_, -, -, rfl⟩ := h
  have hprefix : (cs.take limit).takeWhile Char.isDigit <+: cs :=
    (List.takeWhile_prefix _).trans (List.take_prefix _ _)
  exact ⟨_, fun c hc => List.mem_takeWhile_imp hc, (List.prefix_iff_eq_append.mp hprefix).symm⟩

theorem suffix_of_takeDigits? {limit n : Nat} {cs rest : List Char}
    (h : takeDigits? limit cs = some (n, rest)) : rest <:+ cs := by
  obtain ⟨digits, -, rfl⟩ := takeDigits?_eq_some h
  exact List.suffix_append digits rest

namespace PatternField

/-- A year is a sign or none, and digits. -/
theorem takeDigits?_of_readYear? {cs rest : List Char} {year : Int}
    (h : readYear? cs = some (year, rest)) :
    ∃ limit n, takeDigits? limit (splitSign cs).2 = some (n, rest) := by
  unfold readYear? at h
  split at h
  all_goals
    simp only [Option.map_eq_some_iff, Prod.mk.injEq] at h
    obtain ⟨⟨n, left⟩, htake, -, rfl⟩ := h
  · exact ⟨_, n, htake⟩
  · exact ⟨_, n, htake⟩
  · rename_i hminus hplus
    refine ⟨4, n, ?_⟩
    unfold splitSign
    split
    · exact (hminus _ rfl).elim
    · exact (hplus _ rfl).elim
    · exact htake

theorem suffix_splitSign {cs : List Char} : (splitSign cs).2 <:+ cs := by
  unfold splitSign
  split
  · exact List.suffix_cons _ _
  · exact List.suffix_cons _ _
  · exact List.suffix_rfl

/-- A field leaves the end of the text. -/
theorem suffix_of_read? {field : PatternField} {cs rest : List Char} {numbers : List Int}
    (h : field.read? cs = some (numbers, rest)) : rest <:+ cs := by
  have htrim : Text.trimLeft cs <:+ cs := List.dropWhile_suffix _
  cases field with
  | short =>
    simp only [read?, Option.map_eq_some_iff, Prod.mk.injEq] at h
    obtain ⟨⟨n, left⟩, htake, -, rfl⟩ := h
    exact (suffix_of_takeDigits? htake).trans htrim
  | year =>
    simp only [read?, Option.map_eq_some_iff, Prod.mk.injEq] at h
    obtain ⟨⟨n, left⟩, hyear, -, rfl⟩ := h
    obtain ⟨limit, n, htake⟩ := takeDigits?_of_readYear? hyear
    exact ((suffix_of_takeDigits? htake).trans suffix_splitSign).trans htrim
  | exactly count =>
    simp only [read?] at h
    split_ifs at h
    simp only [Option.map_eq_some_iff, Prod.mk.injEq] at h
    obtain ⟨n, -, -, rfl⟩ := h
    exact List.drop_suffix _ _
  | oneOf chars =>
    cases cs with
    | nil => cases h
    | cons c left =>
      simp only [read?] at h
      split_ifs at h
      cases h
      exact List.suffix_cons _ _
  | gap =>
    cases h
    exact htrim

end PatternField

/-! ### Named characters -/

/-- A text has the characters that the pattern names. -/
theorem mem_of_readPattern? {c : Char} : ∀ {pattern : List PatternField} {cs rest : List Char}
    {numbers : List Int}, readPattern? pattern cs = some (numbers, rest) →
    .oneOf [c] ∈ pattern → c ∈ cs
  | field :: fields, cs, rest, numbers, h, hmem => by
    simp only [readPattern?, bind, Option.bind_eq_some_iff] at h
    obtain ⟨⟨first, left⟩, hfirst, ⟨others, _⟩, hothers, -⟩ := h
    rcases List.mem_cons.mp hmem with rfl | hmem
    · cases cs with
      | nil => cases hfirst
      | cons d left =>
        simp only [PatternField.read?] at hfirst
        split_ifs at hfirst with hd
        rw [List.contains_eq_mem, decide_eq_true_eq, List.mem_singleton] at hd
        exact hd ▸ List.mem_cons_self
    · exact (PatternField.suffix_of_read? hfirst).subset (mem_of_readPattern? hothers hmem)

theorem readPattern?_of_matchPattern? {pattern : List PatternField} {cs : List Char}
    {numbers : List Int} (h : matchPattern? pattern cs = some numbers) :
    readPattern? pattern cs = some (numbers, []) := by
  unfold matchPattern? at h
  split at h
  · rename_i hread
    cases h
    exact hread
  · cases h

theorem matchPattern?_eq_none {c : Char} {pattern : List PatternField} {cs : List Char}
    (hmem : .oneOf [c] ∈ pattern) (h : c ∉ cs) : matchPattern? pattern cs = none :=
  Option.eq_none_iff_forall_ne_some.mpr fun _ hmatch =>
    h (mem_of_readPattern? (readPattern?_of_matchPattern? hmatch) hmem)

/-- **No colon, no time.** -/
theorem Time.read?_eq_none {cs : List Char} (h : ':' ∉ cs) : Time.read? cs = none := by
  have hsecond : .oneOf [':'] ∈ secondPattern := by simp [secondPattern, minutePattern]
  have hminute : .oneOf [':'] ∈ minutePattern := by simp [minutePattern]
  unfold Time.read?
  rw [List.findSome?_cons, matchPattern?_eq_none hsecond h, List.findSome?_cons,
    matchPattern?_eq_none hminute h]
  rfl

/-- **No colon, no timestamp.** -/
theorem Timestamp.read?_eq_none {cs : List Char} (h : ':' ∉ cs) : Timestamp.read? cs = none := by
  have hlocal : ∀ pattern ∈ localPatterns, .oneOf [':'] ∈ pattern := by
    simp [localPatterns, Time.secondPattern, Time.minutePattern]
  have hinternet : readPattern? internetPattern cs = none := by
    refine Option.eq_none_iff_forall_ne_some.mpr fun _ hread => h ?_
    exact mem_of_readPattern? hread (by simp [internetPattern])
  have hnone : (localPatterns.findSome? fun pattern =>
      (matchPattern? pattern cs).bind ofNumbers?) = none := by
    refine List.findSome?_eq_none_iff.mpr fun pattern hpattern => ?_
    rw [matchPattern?_eq_none (hlocal pattern hpattern) h, Option.bind_none]
  unfold Timestamp.read? readInternet?
  rw [hnone, hinternet]
  rfl

/-! ### Years -/

/-- What a year leaves follows its sign and digits, further digits aside. -/
theorem PatternField.pastDigits_of_readYear? {cs rest : List Char} {year : Int}
    (h : readYear? cs = some (year, rest)) : pastDigits cs = rest.dropWhile Char.isDigit := by
  obtain ⟨limit, n, htake⟩ := takeDigits?_of_readYear? h
  obtain ⟨digits, hdigits, heq⟩ := takeDigits?_eq_some htake
  unfold pastDigits
  rw [heq]
  exact List.dropWhile_append_of_pos hdigits

/-- **A date has a hyphen behind the sign and the digits of its year.** -/
theorem Date.pastDigits_of_read? {cs : List Char} {d : Date} (h : Date.read? cs = some d) :
    (pastDigits (Text.trimLeft cs)).head? = some '-' := by
  unfold Date.read? at h
  split at h
  · rename_i year month day hmatch
    have hread := readPattern?_of_matchPattern? hmatch
    simp only [pattern, readPattern?, bind, Option.bind_eq_some_iff] at hread
    obtain ⟨⟨first, left⟩, hyear, ⟨_, _⟩, ⟨⟨_, _⟩, hhyphen, -⟩, -⟩ := hread
    simp only [PatternField.read?, Option.map_eq_some_iff, Prod.mk.injEq] at hyear
    obtain ⟨⟨n, left⟩, hyear, -, rfl⟩ := hyear
    rw [PatternField.pastDigits_of_readYear? hyear]
    cases left with
    | nil => cases hhyphen
    | cons c rest =>
      simp only [PatternField.read?] at hhyphen
      split_ifs at hhyphen with hc
      rw [List.contains_eq_mem, decide_eq_true_eq, List.mem_singleton] at hc
      rw [hc]
      rfl
  · cases h

end RuleFilter
