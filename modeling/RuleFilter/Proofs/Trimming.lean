import RuleFilter.Text.Blank
import Mathlib.Data.List.TakeWhile
import Mathlib.Tactic.SplitIfs

/-! # Trimming

Trimming takes blanks away and nothing else: a character that is not blank stays (`mem_trim`), all
of a blank text goes (`trim_eq_nil_iff`), of a text without blanks only those go that were put
around it (`trim_surrounded`), and blanks between words stay (`trim_words`). -/

namespace RuleFilter.Text

theorem mem_dropWhile {p : Char → Bool} {c : Char} : ∀ {cs : List Char},
    c ∈ cs → p c = false → c ∈ cs.dropWhile p
  | d :: rest, h, hc => by
    rw [List.dropWhile_cons]
    split_ifs with hd
    · rcases List.mem_cons.mp h with rfl | h
      · rw [hc] at hd
        cases hd
      · exact mem_dropWhile h hc
    · exact h

/-- Trimming takes blanks away and nothing else. -/
theorem mem_trim {c : Char} {cs : List Char} (h : c ∈ cs) (hc : isBlank c = false) :
    c ∈ trim cs := by
  unfold trim trimRight trimLeft
  rw [List.mem_reverse]
  exact mem_dropWhile (List.mem_reverse.mpr (mem_dropWhile h hc)) hc

/-- Nothing is left of a blank text, and something of any other. -/
theorem trim_eq_nil_iff {cs : List Char} : trim cs = [] ↔ ∀ c ∈ cs, isBlank c = true := by
  constructor
  · intro h c hc
    by_contra hblank
    have hmem := mem_trim hc (Bool.eq_false_iff.mpr hblank)
    rw [h] at hmem
    cases hmem
  · intro h
    have hleft : trimLeft cs = [] := List.dropWhile_eq_nil_iff.mpr h
    unfold trim
    rw [hleft]
    rfl

theorem dropWhile_isBlank_eq_self {cs : List Char} (h : ∀ c ∈ cs, isBlank c = false) :
    cs.dropWhile isBlank = cs :=
  List.dropWhile_eq_self_iff.mpr fun _ => Bool.eq_false_iff.mp (h _ (List.getElem_mem _))

/-- Blanks around a text without blanks are all that is trimmed. -/
theorem trim_surrounded {front cs back : List Char} (hfront : ∀ c ∈ front, isBlank c = true)
    (hcs : ∀ c ∈ cs, isBlank c = false) (hback : ∀ c ∈ back, isBlank c = true) :
    trim (front ++ cs ++ back) = cs := by
  have hright : trimRight (cs ++ back) = cs := by
    unfold trimRight
    rw [List.reverse_append, List.dropWhile_append_of_pos (by simpa using hback),
      dropWhile_isBlank_eq_self (by simpa using hcs), List.reverse_reverse]
  unfold trim trimLeft
  rw [List.append_assoc, List.dropWhile_append_of_pos hfront]
  cases cs with
  | nil =>
    have hnil : back.dropWhile isBlank = [] := List.dropWhile_eq_nil_iff.mpr hback
    rw [List.nil_append, hnil]
    rfl
  | cons c rest =>
    rw [List.cons_append, List.dropWhile_cons, hcs c List.mem_cons_self,
      if_neg Bool.false_ne_true, ← List.cons_append]
    exact hright

/-- Of a text without blanks nothing is trimmed. -/
theorem trim_word {cs : List Char} (h : ∀ c ∈ cs, isBlank c = false) : trim cs = cs := by
  have hblank : ∀ c ∈ ([] : List Char), isBlank c = true := nofun
  have hword := trim_surrounded hblank h hblank
  rwa [List.nil_append, List.append_nil] at hword

theorem trimLeft_eq_self {cs : List Char} (h : ∀ c ∈ cs.head?, isBlank c = false) :
    trimLeft cs = cs := by
  cases cs with
  | nil => rfl
  | cons c rest => exact List.dropWhile_cons_of_neg (Bool.eq_false_iff.mp (h c rfl))

/-- Between words blanks are not trimmed. -/
theorem trim_words {front back : List Char} (middle : List Char)
    (hfront : ∀ c ∈ front, isBlank c = false) (hback : ∀ c ∈ back, isBlank c = false)
    (front_ne : front ≠ []) (back_ne : back ≠ []) :
    trim (front ++ middle ++ back) = front ++ middle ++ back := by
  have hleft : trimLeft (front ++ middle ++ back) = front ++ middle ++ back := by
    obtain ⟨c, rest, rfl⟩ := List.exists_cons_of_ne_nil front_ne
    refine trimLeft_eq_self fun d hd => ?_
    cases hd
    exact hfront c List.mem_cons_self
  have hright : trimLeft (front ++ middle ++ back).reverse = (front ++ middle ++ back).reverse := by
    obtain ⟨c, rest, hrest⟩ := List.exists_cons_of_ne_nil (mt List.reverse_eq_nil_iff.mp back_ne)
    refine trimLeft_eq_self fun d hd => ?_
    rw [List.reverse_append, hrest] at hd
    cases hd
    exact hback c (List.mem_reverse.mp (hrest ▸ List.mem_cons_self))
  unfold trim
  rw [hleft]
  unfold trimRight
  rw [show List.dropWhile isBlank _ = _ from hright, List.reverse_reverse]

end RuleFilter.Text
