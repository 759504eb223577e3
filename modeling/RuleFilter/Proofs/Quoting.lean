import RuleFilter.Filter.Dialect
import RuleFilter.Proofs.Clause.Spelling

/-! # Quoted paths

A quoted path is its characters between two marks, with a mark written twice and a dot as the end of
one quoted segment and the beginning of the next (`quotePath_eq`). It is read back from left to
right (`readPath?`), and a text is read as a path and a rest just if it is the quoted path and the
rest, and the rest does not go on with a mark or a dot (`readPath?_eq_some_iff`). So any text may be
quoted, SQL included. -/

namespace RuleFilter.Dialect

variable (d : Dialect)

/-! ### Quoted characters -/

/-- A character of a path inside quotes. -/
def escaped (c : Char) : List Char :=
  if c = d.quoteMark then [d.quoteMark, d.quoteMark]
  else if c = '.' then [d.quoteMark, '.', d.quoteMark]
  else [c]

theorem quoteMark_ne_dot : d.quoteMark ≠ '.' := by
  cases d <;> decide

theorem escaped_mark : d.escaped d.quoteMark = [d.quoteMark, d.quoteMark] :=
  if_pos rfl

theorem escaped_dot : d.escaped '.' = [d.quoteMark, '.', d.quoteMark] := by
  rw [escaped, if_neg d.quoteMark_ne_dot.symm, if_pos rfl]

variable {d}

theorem escaped_of_ne {c : Char} (hmark : c ≠ d.quoteMark) (hdot : c ≠ '.') :
    d.escaped c = [c] := by
  rw [escaped, if_neg hmark, if_neg hdot]

/-- A character inside a segment is quoted as in any name. -/
theorem quoteName_cons {c : Char} (hdot : c ≠ '.') (cs : List Char) :
    d.quoteName (c :: cs) = d.quoteMark :: d.escaped c ++ (d.quoteName cs).tail := by
  unfold quoteName Text.quoted Text.doubled escaped
  rw [List.flatMap_cons]
  split_ifs <;> rfl

variable (d)

/-- Segments joined by dots are quoted character by character. -/
theorem intercalate_quoteName : ∀ cs : List Char,
    List.intercalate ['.'] ((cs.splitOn '.').map d.quoteName) =
      d.quoteMark :: cs.flatMap d.escaped ++ [d.quoteMark]
  | [] => rfl
  | c :: cs => by
    have ih := intercalate_quoteName cs
    rw [List.splitOn_cons_eq_if_modifyHead, List.flatMap_cons]
    cases hsegments : cs.splitOn '.' with
    | nil => exact absurd hsegments (List.splitOn_ne_nil _ _)
    | cons segment segments =>
      rw [hsegments, List.map_cons, intercalate_cons] at ih
      by_cases hdot : c = '.'
      · subst hdot
        have hfirst : d.quoteName [] = [d.quoteMark, d.quoteMark] := rfl
        simp only [BEq.rfl, if_true, List.map_cons, intercalate_cons, List.flatMap_cons, hfirst,
          List.append_assoc, ih, escaped_dot]
        rfl
      · have hhead : d.quoteName segment = d.quoteMark :: (d.quoteName segment).tail := rfl
        rw [hhead, List.cons_append, List.cons_append] at ih
        rw [if_neg (by simpa using hdot), List.modifyHead_cons, List.map_cons, intercalate_cons,
          quoteName_cons hdot, List.append_assoc, (List.cons.inj ih).2]
        simp

theorem quotePath_eq (path : String) :
    d.quotePath path = d.quoteMark :: path.toList.flatMap d.escaped ++ [d.quoteMark] :=
  d.intercalate_quoteName path.toList

/-! ### Reading back -/

/-- Where a reader of a quoted path stands. -/
inductive Place where
  | inside
  /-- Behind a mark, which is the first of two or closes a segment. -/
  | behindMark
  /-- Behind the dot that follows a segment. -/
  | behindDot

/-- What stands in front of a place and is not accounted for yet. -/
def pending : Place → List Char
  | .inside => []
  | .behindMark => [d.quoteMark]
  | .behindDot => [d.quoteMark, '.']

/-- Reads on from a place to the end of a quoted path, and gives what follows it. -/
def readOn? : Place → List Char → Option (List Char × List Char)
  | .inside, [] => none
  | .inside, c :: rest =>
    if c = d.quoteMark then readOn? .behindMark rest
    else if c = '.' then none
    else (readOn? .inside rest).map (Prod.map (c :: ·) id)
  | .behindMark, [] => some ([], [])
  | .behindMark, c :: rest =>
    if c = d.quoteMark then (readOn? .inside rest).map (Prod.map (d.quoteMark :: ·) id)
    else if c = '.' then readOn? .behindDot rest
    else some ([], c :: rest)
  | .behindDot, [] => none
  | .behindDot, c :: rest =>
    if c = d.quoteMark then (readOn? .inside rest).map (Prod.map ('.' :: ·) id) else none

/-- Reads a quoted path, and gives what follows it. -/
def readPath? : List Char → Option (String × List Char)
  | [] => none
  | c :: rest =>
    if c = d.quoteMark then (d.readOn? .inside rest).map (Prod.map String.ofList id) else none

/-- A text does not go on with a quoted path: it does not begin with a mark or a dot. -/
def Ends (rest : List Char) : Prop :=
  ∀ c ∈ rest.head?, c ≠ d.quoteMark ∧ c ≠ '.'

variable {d}

theorem ends_nil : d.Ends [] :=
  fun c hc => by cases hc

theorem readOn?_behindMark {rest : List Char} (h : d.Ends rest) :
    d.readOn? .behindMark rest = some ([], rest) := by
  cases rest with
  | nil => rfl
  | cons c rest =>
    obtain ⟨hmark, hdot⟩ := h c rfl
    rw [readOn?, if_neg hmark, if_neg hdot]

/-- What is quoted is read back. -/
theorem readOn?_escaped {rest : List Char} (h : d.Ends rest) : ∀ cs : List Char,
    d.readOn? .inside (cs.flatMap d.escaped ++ d.quoteMark :: rest) = some (cs, rest)
  | [] => by
    rw [List.flatMap_nil, List.nil_append, readOn?, if_pos rfl, readOn?_behindMark h]
  | c :: cs => by
    have ih := readOn?_escaped h cs
    have hmark := d.quoteMark_ne_dot
    rw [List.flatMap_cons, List.append_assoc]
    by_cases hc : c = d.quoteMark
    · simp [hc, escaped_mark, readOn?, ih]
    · by_cases hdot : c = '.'
      · simp [hdot, escaped_dot, readOn?, ih, hmark.symm]
      · simp [escaped_of_ne hc hdot, readOn?, ih, hc, hdot]

/-- A character in front of what was read. -/
theorem map_cons_eq_some_iff {x : Option (List Char × List Char)} {c : Char}
    {path rest : List Char} : x.map (Prod.map (c :: ·) id) = some (path, rest) ↔
      ∃ cs, x = some (cs, rest) ∧ path = c :: cs := by
  constructor
  · intro h
    obtain ⟨⟨cs, rest'⟩, hx, heq⟩ := Option.map_eq_some_iff.mp h
    cases heq
    exact ⟨cs, hx, rfl⟩
  · rintro ⟨cs, rfl, rfl⟩
    rfl

/-- **What is read is quoted.** -/
theorem eq_of_readOn? {cs path rest : List Char} {place : Place}
    (h : d.readOn? place cs = some (path, rest)) :
    d.pending place ++ cs = path.flatMap d.escaped ++ d.quoteMark :: rest ∧ d.Ends rest := by
  induction cs generalizing place path with
  | nil =>
    cases place with
    | inside => cases h
    | behindMark =>
      cases h
      exact ⟨rfl, ends_nil⟩
    | behindDot => cases h
  | cons c cs ih =>
    -- each place goes on in one of the three, and what it leaves pending moves along
    cases place with
    | inside =>
      rw [readOn?] at h
      split_ifs at h with hmark hdot
      · subst hmark
        exact ih h
      · obtain ⟨path, hrest, rfl⟩ := map_cons_eq_some_iff.mp h
        obtain ⟨heq, hends⟩ := ih hrest
        rw [List.flatMap_cons, escaped_of_ne hmark hdot, List.append_assoc, ← heq]
        exact ⟨rfl, hends⟩
    | behindMark =>
      rw [readOn?] at h
      split_ifs at h with hmark hdot
      · subst hmark
        obtain ⟨path, hrest, rfl⟩ := map_cons_eq_some_iff.mp h
        obtain ⟨heq, hends⟩ := ih hrest
        rw [List.flatMap_cons, escaped_mark, List.append_assoc, ← heq]
        exact ⟨rfl, hends⟩
      · subst hdot
        exact ih h
      · cases h
        exact ⟨rfl, fun c' hc' => by cases hc'; exact ⟨hmark, hdot⟩⟩
    | behindDot =>
      rw [readOn?] at h
      split_ifs at h with hmark
      subst hmark
      obtain ⟨path, hrest, rfl⟩ := map_cons_eq_some_iff.mp h
      obtain ⟨heq, hends⟩ := ih hrest
      rw [List.flatMap_cons, escaped_dot, List.append_assoc, ← heq]
      exact ⟨rfl, hends⟩

/-- **A path is read just from its own quotes**, and they end in front of any text that goes on with
neither a mark nor a dot. -/
theorem readPath?_eq_some_iff {cs rest : List Char} {path : String} :
    d.readPath? cs = some (path, rest) ↔ cs = d.quotePath path ++ rest ∧ d.Ends rest := by
  rw [quotePath_eq]
  constructor
  · intro h
    cases cs with
    | nil => cases h
    | cons c cs =>
      rw [readPath?] at h
      split_ifs at h with hmark
      obtain ⟨⟨path', rest'⟩, hread, heq⟩ := Option.map_eq_some_iff.mp h
      cases heq
      obtain ⟨heq, hends⟩ := eq_of_readOn? hread
      have hcs : cs = path'.flatMap d.escaped ++ d.quoteMark :: rest' := heq
      refine ⟨?_, hends⟩
      rw [hcs, hmark, String.toList_ofList]
      simp
  · rintro ⟨rfl, hends⟩
    have hread := readOn?_escaped hends path.toList
    simp [readPath?, hread]

/-- The path ends in front of the blank, and the mark inside it does not end it. -/
example : postgres.readPath? "\"a\"\" = b\".\"c\" = $1".toList =
    some ("a\" = b.c", " = $1".toList) :=
  rfl

/-- Two quoted paths are told apart, whatever stands behind them. -/
theorem eq_of_quotePath_append {path path' : String} {rest rest' : List Char}
    (hends : d.Ends rest) (hends' : d.Ends rest')
    (h : d.quotePath path ++ rest = d.quotePath path' ++ rest') : path = path' ∧ rest = rest' := by
  have hread : d.readPath? (d.quotePath path ++ rest) = some (path, rest) :=
    readPath?_eq_some_iff.mpr ⟨rfl, hends⟩
  rw [h, readPath?_eq_some_iff.mpr ⟨rfl, hends'⟩] at hread
  obtain ⟨hpath, hrest⟩ := Prod.mk.inj (Option.some.inj hread)
  exact ⟨hpath.symm, hrest.symm⟩

end RuleFilter.Dialect
