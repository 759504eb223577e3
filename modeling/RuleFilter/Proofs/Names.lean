import RuleFilter.Filter.Labelled
import Mathlib.Data.List.Nodup
import Mathlib.Tactic.SplitIfs

/-! # Drawing names

A supply passes over taken names and never goes back: the number it draws is the least free one from
its own number on (`draw_eq`). Hence a whole row of draws takes the first free numbers, all of them
(`label_drawn`), and it does not matter whether names drawn earlier are remembered by the number of
the supply or by the list of taken names (`label_resume`). -/

namespace RuleFilter.NameSupply

/-! ### The next free number -/

theorem name_injective {stem : String} {m n : Nat} (h : name stem m = name stem n) : m = n := by
  have hrepr : toString m = toString n := (String.append_right_inj stem).mp h
  have hdigits : Nat.toDigits 10 m = Nat.toDigits 10 n := by
    rw [← Nat.toList_repr, ← Nat.toList_repr]
    exact congrArg String.toList hrepr
  have hvalue := congrArg (fun cs => Nat.ofDigitChars 10 cs 0) hdigits
  simpa using hvalue

/-- A number is the least free one from a start on. -/
structure NextFree (taken : List String) (stem : String) (start number : Nat) : Prop where
  le : start ≤ number
  free : name stem number ∉ taken
  passed : ∀ m, start ≤ m → m < number → name stem m ∈ taken

theorem NextFree.unique {taken : List String} {stem : String} {start m n : Nat}
    (hm : NextFree taken stem start m) (hn : NextFree taken stem start n) : m = n := by
  rcases Nat.lt_trichotomy m n with h | h | h
  · exact absurd (hn.passed m hm.le h) hm.free
  · exact h
  · exact absurd (hm.passed n hn.le h) hn.free

variable (taken : List String) (stem : String)

theorem firstFree_spec : ∀ (steps start : Nat),
    start ≤ firstFree taken stem steps start ∧
      (∀ m, start ≤ m → m < firstFree taken stem steps start → name stem m ∈ taken) ∧
      (name stem (firstFree taken stem steps start) ∉ taken ∨
        firstFree taken stem steps start = start + steps)
  | 0, start => by
    refine ⟨Nat.le_refl _, fun m h1 h2 => ?_, Or.inr rfl⟩
    unfold firstFree at h2
    omega
  | steps + 1, start => by
    rw [firstFree]
    split_ifs with h
    · obtain ⟨hle, hpassed, hend⟩ := firstFree_spec steps (start + 1)
      refine ⟨by omega, fun m h1 h2 => ?_, hend.imp id fun he => by omega⟩
      rcases Nat.eq_or_lt_of_le h1 with rfl | h1
      · simpa using h
      · exact hpassed m h1 h2
    · refine ⟨Nat.le_refl _, fun m h1 h2 => by omega, Or.inl ?_⟩
      simpa using h

/-- Among more numbers than there are taken names, one is free. -/
theorem le_length_of_taken {taken : List String} {stem : String} {start count : Nat}
    (h : ∀ m, start ≤ m → m < start + count → name stem m ∈ taken) : count ≤ taken.length := by
  have hnodup : ((List.range' start count).map (name stem)).Nodup :=
    (List.nodup_range' _).map fun _ _ => name_injective
  have hsub : (List.range' start count).map (name stem) ⊆ taken := by
    intro n hn
    obtain ⟨m, hm, rfl⟩ := List.mem_map.mp hn
    have := List.mem_range'_1.mp hm
    exact h m this.1 this.2
  simpa using hnodup.length_le_of_subset hsub

theorem firstFree_nextFree (start : Nat) :
    NextFree taken stem start (firstFree taken stem taken.length start) := by
  obtain ⟨hle, hpassed, hend⟩ := firstFree_spec taken stem taken.length start
  refine ⟨hle, fun hmem => ?_, hpassed⟩
  have hlast := hend.resolve_left (not_not_intro hmem)
  have hall : ∀ m, start ≤ m → m < start + (taken.length + 1) → name stem m ∈ taken := by
    intro m h1 h2
    rcases Nat.lt_or_ge m (start + taken.length) with h | h
    · exact hpassed m h1 (by omega)
    · rwa [show m = firstFree taken stem taken.length start by omega]
  have hcount := le_length_of_taken hall
  omega

/-- **A draw takes the least free number.** -/
theorem draw_eq (start : Nat) : ∃ n,
    NextFree taken stem start n ∧ draw taken ⟨stem, start⟩ = (name stem n, ⟨stem, n + 1⟩) :=
  ⟨_, firstFree_nextFree taken stem start, rfl⟩

/-! ### Rows of names -/

/-- The numbers are the free ones from a start up to a stop, in their order. -/
structure Drawn (taken : List String) (stem : String) (start stop : Nat) (numbers : List Nat) :
    Prop where
  le : start ≤ stop
  increasing : numbers.Pairwise (· < ·)
  range : ∀ n ∈ numbers, start ≤ n ∧ n < stop
  free : ∀ n ∈ numbers, name stem n ∉ taken
  passed : ∀ m, start ≤ m → m < stop → name stem m ∈ taken ∨ m ∈ numbers

theorem label_cons (value : Value) (rest : List Value)
    (supply : NameSupply) :
    label taken (value :: rest) supply =
      (((supply.draw taken).1, value) :: (label taken rest (supply.draw taken).2).1,
        (label taken rest (supply.draw taken).2).2) := rfl

theorem label_append (ys : List Value) : ∀ (xs : List Value)
    (supply : NameSupply), label taken (xs ++ ys) supply =
      ((label taken xs supply).1 ++ (label taken ys (label taken xs supply).2).1,
        (label taken ys (label taken xs supply).2).2)
  | [], supply => rfl
  | x :: xs, supply => by
    rw [List.cons_append, label_cons, label_cons, label_append ys xs]
    rfl

@[simp]
theorem map_snd_label : ∀ (values : List Value) (supply : NameSupply),
    (label taken values supply).1.map Prod.snd = values
  | [], supply => rfl
  | value :: rest, supply => by
    rw [label_cons, List.map_cons, map_snd_label rest]

@[simp]
theorem stem_label : ∀ (values : List Value) (supply : NameSupply),
    (label taken values supply).2.stem = supply.stem
  | [], supply => rfl
  | value :: rest, supply => by
    rw [label_cons, stem_label rest]
    rfl

/-- **A row of draws takes all free numbers, from the first on.** -/
theorem label_drawn : ∀ (values : List Value) (start : Nat),
    ∃ numbers, Drawn taken stem start (label taken values ⟨stem, start⟩).2.next numbers ∧
      (label taken values ⟨stem, start⟩).1.map Prod.fst = numbers.map (name stem)
  | [], start => by
    have hnone : ∀ m, start ≤ m → m < start → name stem m ∈ taken ∨ m ∈ ([] : List Nat) :=
      fun m h1 h2 => absurd h1 (by omega)
    exact ⟨[], ⟨Nat.le_refl _, .nil, by simp, by simp, hnone⟩, rfl⟩
  | value :: rest, start => by
    obtain ⟨n, hn, hdraw⟩ := draw_eq taken stem start
    obtain ⟨numbers, hd, hnames⟩ := label_drawn rest (n + 1)
    have hle := hn.le
    have hstop := hd.le
    simp only [label_cons, hdraw]
    refine ⟨n :: numbers, ⟨by omega, ?_, ?_, ?_, ?_⟩, by rw [List.map_cons, hnames, List.map_cons]⟩
    · refine List.pairwise_cons.mpr ⟨fun m hm => ?_, hd.increasing⟩
      have := hd.range m hm
      omega
    · intro m hm
      rcases List.mem_cons.mp hm with rfl | hm
      · exact ⟨hle, by omega⟩
      · have := hd.range m hm
        exact ⟨by omega, this.2⟩
    · intro m hm
      rcases List.mem_cons.mp hm with rfl | hm
      · exact hn.free
      · exact hd.free m hm
    · intro m h1 h2
      rcases Nat.lt_trichotomy m n with h | rfl | h
      · exact Or.inl (hn.passed m h1 h)
      · exact Or.inr List.mem_cons_self
      · exact (hd.passed m h h2).imp id (List.mem_cons_of_mem _)

theorem draw_resume {taken taken' : List String} {stem : String} {k k' : Nat} (hle : k' ≤ k)
    (hpassed : ∀ m, k' ≤ m → m < k → name stem m ∈ taken')
    (hsame : ∀ m, k ≤ m → (name stem m ∈ taken' ↔ name stem m ∈ taken)) :
    draw taken' ⟨stem, k'⟩ = draw taken ⟨stem, k⟩ := by
  obtain ⟨n', hn', hdraw'⟩ := draw_eq taken' stem k'
  obtain ⟨n, hn, hdraw⟩ := draw_eq taken stem k
  have hn2 : NextFree taken' stem k' n := by
    refine ⟨Nat.le_trans hle hn.le, fun h => hn.free ((hsame n hn.le).mp h), fun m h1 h2 => ?_⟩
    rcases Nat.lt_or_ge m k with h | h
    · exact hpassed m h1 h
    · exact (hsame m h).mpr (hn.passed m h h2)
  rw [hdraw', hdraw, hn'.unique hn2]

/-- **Drawing can be taken up again from a smaller number** if the names passed over since are taken
by now: the same names are drawn. -/
theorem label_resume {taken taken' : List String} {stem : String} : ∀ (values : List Value)
    {k k' : Nat}, k' ≤ k → (∀ m, k' ≤ m → m < k → name stem m ∈ taken') →
      (∀ m, k ≤ m → (name stem m ∈ taken' ↔ name stem m ∈ taken)) →
      (label taken' values ⟨stem, k'⟩).1 = (label taken values ⟨stem, k⟩).1
  | [], _, _, _, _, _ => rfl
  | value :: rest, k, k', hle, hpassed, hsame => by
    obtain ⟨n, hn, hdraw⟩ := draw_eq taken stem k
    have hrest : (label taken' rest ⟨stem, n + 1⟩).1 = (label taken rest ⟨stem, n + 1⟩).1 :=
      label_resume rest (Nat.le_refl _) (fun m h1 h2 => absurd h1 (by omega))
        (fun m hm => hsame m (Nat.le_trans hn.le (by omega)))
    rw [label_cons, label_cons, draw_resume hle hpassed hsame, hdraw, hrest]

/-- **Starting over with the drawn names taken is the same as going on.** -/
theorem label_restart (taken : List String) (stem : String) (start : Nat) (xs ys : List Value) :
    (label (taken ++ (label taken xs ⟨stem, start⟩).1.map Prod.fst) ys ⟨stem, start⟩).1 =
      (label taken ys (label taken xs ⟨stem, start⟩).2).1 := by
  obtain ⟨numbers, hd, hnames⟩ := label_drawn taken stem xs start
  have hsupply : (label taken xs ⟨stem, start⟩).2 =
      ⟨stem, (label taken xs ⟨stem, start⟩).2.next⟩ :=
    congrArg (NameSupply.mk · _) (stem_label taken xs ⟨stem, start⟩)
  have hmem : ∀ m, name stem m ∈ taken ++ numbers.map (name stem) ↔
      name stem m ∈ taken ∨ m ∈ numbers := by
    intro m
    rw [List.mem_append]
    refine or_congr Iff.rfl ⟨fun h => ?_, List.mem_map_of_mem⟩
    obtain ⟨n, hn, heq⟩ := List.mem_map.mp h
    rwa [← name_injective heq]
  rw [hnames, hsupply]
  refine label_resume ys hd.le (fun m h1 h2 => (hmem m).mpr (hd.passed m h1 h2)) fun m hm => ?_
  rw [hmem]
  refine ⟨fun h => h.resolve_right fun hn => ?_, Or.inl⟩
  have := (hd.range m hn).2
  omega

end RuleFilter.NameSupply
