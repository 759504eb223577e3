import RuleFilter.Proofs.Names
import Mathlib.Data.Set.Card
import Mathlib.Order.Bounds.Basic

/-! # Searching for a name

A free name is found turn by turn: each turn looks at the name of the next number and moves on to
the number behind it, and the first free name ends the search (`Search`). Nothing bounds the turns
beforehand, and what is taken may be any property of names. A search ends just if some number ahead
is free, and then at the least of these (`search_iff`). If the taken names are finitely many, there
is one, and the search has looked at taken names only before it (`exists_isLeast_freeNumbers`,
`distance_le_ncard`).

A draw is such a search past the names of a list (`exists_isLeast_draw`, `searches_drawEach`).
Searches that follow one another go upwards, so no name is found twice, whatever is taken in each
(`Searches.ascending`). -/

namespace RuleFilter.NameSupply

/-! ### One search -/

/-- A search from a supply ends after some turns with a name and leaves another supply. -/
inductive Search (taken : String → Bool) : NameSupply → Nat → String → NameSupply → Prop where
  | found {stem : String} {next : Nat} (free : taken (name stem next) = false) :
      Search taken ⟨stem, next⟩ 1 (name stem next) ⟨stem, next + 1⟩
  | passed {stem : String} {next turns : Nat} {drawn : String} {after : NameSupply}
      (busy : taken (name stem next) = true)
      (rest : Search taken ⟨stem, next + 1⟩ turns drawn after) :
      Search taken ⟨stem, next⟩ (turns + 1) drawn after

/-- The numbers from a start on whose names are free. -/
def freeNumbers (taken : String → Bool) (stem : String) (start : Nat) : Set Nat :=
  {n | start ≤ n ∧ taken (name stem n) = false}

variable {taken : String → Bool} {stem : String} {start number : Nat}

/-- A turn at a taken name leaves the free numbers ahead as they are. -/
theorem freeNumbers_succ (busy : taken (name stem start) = true) :
    freeNumbers taken stem (start + 1) = freeNumbers taken stem start := by
  ext n
  constructor
  · rintro ⟨hle, hfree⟩
    exact ⟨by omega, hfree⟩
  · rintro ⟨hle, hfree⟩
    have hne : start ≠ n := by
      rintro rfl
      rw [busy] at hfree
      cases hfree
    exact ⟨by omega, hfree⟩

theorem isLeast_freeNumbers_self (free : taken (name stem start) = false) :
    IsLeast (freeNumbers taken stem start) start :=
  ⟨⟨le_rfl, free⟩, fun _ h => h.1⟩

theorem taken_of_lt (hleast : IsLeast (freeNumbers taken stem start) number) {n : Nat}
    (hle : start ≤ n) (hlt : n < number) : taken (name stem n) = true := by
  by_contra hfree
  have := hleast.2 ⟨hle, Bool.eq_false_of_not_eq_true hfree⟩
  omega

theorem search_of_isLeast : ∀ (distance : Nat) {start : Nat},
    IsLeast (freeNumbers taken stem start) (start + distance) →
      Search taken ⟨stem, start⟩ (distance + 1) (name stem (start + distance))
        ⟨stem, start + distance + 1⟩
  | 0, start, h => .found h.1.2
  | distance + 1, start, h => by
    have hbusy := taken_of_lt h le_rfl (by omega)
    have hsum : start + (distance + 1) = start + 1 + distance := by omega
    rw [hsum, ← freeNumbers_succ hbusy] at h
    rw [hsum]
    exact .passed hbusy (search_of_isLeast distance h)

/-- **A search ends just at the least free number ahead**, after one turn for each number up to it.
-/
theorem search_iff {turns : Nat} {drawn : String} {after : NameSupply} :
    Search taken ⟨stem, start⟩ turns drawn after ↔
      ∃ number, IsLeast (freeNumbers taken stem start) number ∧ turns = number - start + 1 ∧
        drawn = name stem number ∧ after = ⟨stem, number + 1⟩ := by
  constructor
  · intro h
    generalize hsupply : (⟨stem, start⟩ : NameSupply) = supply at h
    -- the free numbers ahead are the same after every turn but the last
    induction h generalizing start with
    | @found _ next free =>
      cases hsupply
      exact ⟨next, isLeast_freeNumbers_self free, by omega, rfl, rfl⟩
    | @passed _ next turns _ _ busy _ ih =>
      cases hsupply
      obtain ⟨number, hleast, hturns, hdrawn, hafter⟩ := ih rfl
      have hahead := hleast.1.1
      rw [freeNumbers_succ busy] at hleast
      exact ⟨number, hleast, by omega, hdrawn, hafter⟩
  · rintro ⟨number, hleast, rfl, rfl, rfl⟩
    obtain ⟨distance, rfl⟩ := Nat.exists_eq_add_of_le hleast.1.1
    rw [Nat.add_sub_cancel_left]
    exact search_of_isLeast distance hleast

/-! ### Finitely many taken names -/

theorem NextFree.isLeast {names : List String} (hnext : NextFree names stem start number)
    (h : ∀ x, x ∈ names ↔ taken x = true) :
    IsLeast (freeNumbers taken stem start) number := by
  have hfree : ∀ n, name stem n ∉ names ↔ taken (name stem n) = false := fun n => by
    rw [h, Bool.not_eq_true]
  refine ⟨⟨hnext.le, (hfree number).mp hnext.free⟩, fun n hn => ?_⟩
  by_contra hlt
  exact (hfree n).mpr hn.2 (hnext.passed n hn.1 (by omega))

/-- A property of finitely many names is that of being in some list. -/
theorem exists_list_of_finite (h : {x | taken x = true}.Finite) :
    ∃ names : List String, ∀ x, x ∈ names ↔ taken x = true :=
  ⟨h.toFinset.toList, fun x => by simp⟩

/-- **A draw takes what a search finds**, past the names of a list. -/
theorem exists_isLeast_draw {names : List String} (h : ∀ x, x ∈ names ↔ taken x = true)
    (stem : String) (start : Nat) :
    ∃ number, IsLeast (freeNumbers taken stem start) number ∧
      draw names ⟨stem, start⟩ = (name stem number, ⟨stem, number + 1⟩) := by
  obtain ⟨number, hnext, hdraw⟩ := draw_eq names stem start
  exact ⟨number, hnext.isLeast h, hdraw⟩

theorem exists_isLeast_freeNumbers (h : {x | taken x = true}.Finite) (stem : String)
    (start : Nat) : ∃ number, IsLeast (freeNumbers taken stem start) number := by
  obtain ⟨names, hnames⟩ := exists_list_of_finite h
  obtain ⟨number, hleast, _⟩ := exists_isLeast_draw hnames stem start
  exact ⟨number, hleast⟩

/-- The names that a search passes over are taken names of the stem, each a different one. -/
theorem distance_le_ncard (h : {x | taken x = true}.Finite)
    (hleast : IsLeast (freeNumbers taken stem start) number) :
    number - start ≤ {x | taken x = true ∧ x ∈ Set.range (name stem)}.ncard := by
  have hfinite : {x | taken x = true ∧ x ∈ Set.range (name stem)}.Finite :=
    h.subset fun x hx => hx.1
  have hpassed : ∀ n, start ≤ n → n < start + (number - start) →
      name stem n ∈ hfinite.toFinset.toList := by
    intro n hle hlt
    rw [Finset.mem_toList, Set.Finite.mem_toFinset]
    exact ⟨taken_of_lt hleast hle (by omega), n, rfl⟩
  have hcount := le_length_of_taken hpassed
  rwa [Finset.length_toList, ← Set.ncard_eq_toFinset_card _ hfinite] at hcount

/-! ### Searches one after another -/

/-- Searches that follow one another, each from the supply that the one before it has left and each
with taken names of its own. -/
inductive Searches : List (String → Bool) → NameSupply → List String → NameSupply → Prop where
  | none {supply : NameSupply} : Searches [] supply [] supply
  | next {taken : String → Bool} {others : List (String → Bool)} {supply between after : NameSupply}
      {turns : Nat} {drawn : String} {names : List String}
      (first : Search taken supply turns drawn between)
      (rest : Searches others between names after) :
      Searches (taken :: others) supply (drawn :: names) after

/-- Draws that follow one another, each past names of its own. -/
def drawEach : List (List String) → NameSupply → List String × NameSupply
  | [], supply => ([], supply)
  | taken :: others, supply =>
    let (drawn, supply) := supply.draw taken
    let (names, supply) := drawEach others supply
    (drawn :: names, supply)

theorem exists_searches : ∀ {calls : List (String → Bool)},
    (∀ taken ∈ calls, {x | taken x = true}.Finite) → ∀ supply : NameSupply,
      ∃ names after, Searches calls supply names after
  | [], _, supply => ⟨[], supply, .none⟩
  | taken :: others, h, ⟨stem, start⟩ => by
    obtain ⟨hfirst, hrest⟩ := List.forall_mem_cons.mp h
    obtain ⟨number, hleast⟩ := exists_isLeast_freeNumbers hfirst stem start
    have hsearch := search_iff.mpr ⟨number, hleast, rfl, rfl, rfl⟩
    obtain ⟨names, after, hnames⟩ := exists_searches hrest ⟨stem, number + 1⟩
    exact ⟨_, after, .next hsearch hnames⟩

/-- **Searches go upwards**: the names they find belong to numbers that increase from where the
first search starts, each free in its own search. -/
theorem Searches.ascending {stem : String} {start : Nat} {calls : List (String → Bool)}
    {names : List String} {after : NameSupply} (h : Searches calls ⟨stem, start⟩ names after) :
    ∃ numbers : List Nat, names = numbers.map (name stem) ∧ numbers.Pairwise (· < ·) ∧
      (∀ n ∈ numbers, start ≤ n) ∧
      List.Forall₂ (fun taken n => taken (name stem n) = false) calls numbers := by
  generalize hsupply : (⟨stem, start⟩ : NameSupply) = supply at h
  induction h generalizing start with
  | none => exact ⟨[], rfl, .nil, nofun, .nil⟩
  | next first rest ih =>
    cases hsupply
    obtain ⟨number, hleast, -, rfl, rfl⟩ := search_iff.mp first
    obtain ⟨numbers, rfl, hincreasing, hahead, hfree⟩ := ih rfl
    have hstart := hleast.1.1
    refine ⟨number :: numbers, rfl, List.pairwise_cons.mpr ⟨hahead, hincreasing⟩, ?_,
      .cons hleast.1.2 hfree⟩
    refine List.forall_mem_cons.mpr ⟨hstart, fun n hn => ?_⟩
    have := hahead n hn
    omega

theorem Searches.nodup {stem : String} {start : Nat} {calls : List (String → Bool)}
    {names : List String} {after : NameSupply} (h : Searches calls ⟨stem, start⟩ names after) :
    names.Nodup := by
  obtain ⟨numbers, rfl, hincreasing, -, -⟩ := h.ascending
  have hdistinct : numbers.Nodup := hincreasing.imp Nat.ne_of_lt
  exact hdistinct.map fun _ _ => name_injective

theorem searches_drawEach : ∀ (lists : List (List String)) (supply : NameSupply),
    Searches (lists.map fun names x => names.contains x) supply (drawEach lists supply).1
      (drawEach lists supply).2
  | [], _ => .none
  | names :: others, ⟨stem, start⟩ => by
    have hmem : ∀ x, x ∈ names ↔ names.contains x = true := fun x => List.contains_iff_mem.symm
    obtain ⟨number, hleast, hdraw⟩ := exists_isLeast_draw hmem stem start
    have hrest := searches_drawEach others ⟨stem, number + 1⟩
    rw [drawEach, hdraw]
    exact .next (search_iff.mpr ⟨number, hleast, rfl, rfl, rfl⟩) hrest

/-- **A search ends at the least free number, and no name is found twice.** Past finitely many taken
names it ends after one turn for each number up to the least free one, which is at most one turn
more than there are taken names of the stem; it always finds the same, and a draw past a list of the
taken names finds it too. Searches that follow one another, each with finitely many taken names of
its own, all end, and draws are such searches; whatever they find, the numbers increase and the
names differ. -/
theorem search_ends (stem : String) (start : Nat) :
    (∀ taken : String → Bool, {x | taken x = true}.Finite → ∃ number,
      IsLeast {n | start ≤ n ∧ taken (name stem n) = false} number ∧
      number - start + 1 ≤ {x | taken x = true ∧ x ∈ Set.range (name stem)}.ncard + 1 ∧
      (∀ turns drawn after, Search taken ⟨stem, start⟩ turns drawn after ↔
        turns = number - start + 1 ∧ drawn = name stem number ∧ after = ⟨stem, number + 1⟩) ∧
      ∀ names : List String, (∀ x, x ∈ names ↔ taken x = true) →
        draw names ⟨stem, start⟩ = (name stem number, ⟨stem, number + 1⟩)) ∧
    (∀ calls : List (String → Bool), (∀ taken ∈ calls, {x | taken x = true}.Finite) →
      ∃ names after, Searches calls ⟨stem, start⟩ names after) ∧
    (∀ lists : List (List String), Searches (lists.map fun names x => names.contains x)
      ⟨stem, start⟩ (drawEach lists ⟨stem, start⟩).1 (drawEach lists ⟨stem, start⟩).2) ∧
    ∀ calls names after, Searches calls ⟨stem, start⟩ names after →
      names.Nodup ∧ ∃ numbers : List Nat, names = numbers.map (name stem) ∧
        numbers.Pairwise (· < ·) ∧ (∀ n ∈ numbers, start ≤ n) ∧
        List.Forall₂ (fun taken n => taken (name stem n) = false) calls numbers := by
  refine ⟨fun taken hfinite => ?one, fun calls hfinite => exists_searches hfinite ⟨stem, start⟩,
    fun lists => searches_drawEach lists ⟨stem, start⟩,
    fun calls names after h => ⟨h.nodup, h.ascending⟩⟩
  obtain ⟨number, hleast⟩ := exists_isLeast_freeNumbers hfinite stem start
  have hcount := distance_le_ncard hfinite hleast
  refine ⟨number, hleast, by omega, fun turns drawn after => ?_, fun names hnames => ?_⟩
  · rw [search_iff]
    constructor
    · rintro ⟨number', hleast', hfound⟩
      rwa [hleast'.unique hleast] at hfound
    · exact fun hfound => ⟨number, hleast, hfound⟩
  · obtain ⟨number', hleast', hdraw⟩ := exists_isLeast_draw hnames stem start
    rw [hdraw, hleast'.unique hleast]

/-- The stem ends in a digit, so its names are spelled like later names of a shorter stem. -/
theorem search_ends_digitStem :
    {x | ["p10", "p3", "p11"].contains x = true}.Finite ∧
      3 ≤ {x | ["p10", "p3", "p11"].contains x = true ∧ x ∈ Set.range (name "p1")}.ncard + 1 ∧
      Search (fun x => ["p10", "p3", "p11"].contains x) ⟨"p1", 0⟩ 3 "p12" ⟨"p1", 3⟩ ∧
      draw ["p10", "p3", "p11"] ⟨"p1", 0⟩ = ("p12", ⟨"p1", 3⟩) ∧
      (∃ names after, Searches [fun x => ["p10", "p3", "p11"].contains x, fun x => x == "p12"]
        ⟨"p1", 0⟩ names after) ∧
      (drawEach [["p10", "p11"], [], ["p14"]] ⟨"p1", 0⟩).1 = ["p12", "p13", "p15"] ∧
      ["p12", "p13", "p15"].Nodup := by
  have hfinite : {x | ["p10", "p3", "p11"].contains x = true}.Finite :=
    (List.finite_toSet ["p10", "p3", "p11"]).subset fun x hx => List.contains_iff_mem.mp hx
  have hsingle : {x | (x == "p12") = true}.Finite :=
    (Set.finite_singleton "p12").subset fun x hx => eq_of_beq hx
  obtain ⟨hone, hall, hdraws, hdistinct⟩ := search_ends "p1" 0
  obtain ⟨number, -, hbound, hsearch, hdraw⟩ := hone _ hfinite
  have hrun : Search (fun x => ["p10", "p3", "p11"].contains x) ⟨"p1", 0⟩ 3 "p12" ⟨"p1", 3⟩ :=
    .passed rfl (.passed rfl (.found rfl))
  obtain ⟨hturns, -, -⟩ := (hsearch _ _ _).mp hrun
  obtain rfl : number = 2 := by omega
  exact ⟨hfinite, hbound, hrun, hdraw _ fun x => List.contains_iff_mem.symm,
    hall _ (List.forall_mem_cons.mpr ⟨hfinite, List.forall_mem_singleton.mpr hsingle⟩), rfl,
    (hdistinct _ _ _ (hdraws [["p10", "p11"], [], ["p14"]])).1⟩

end RuleFilter.NameSupply
