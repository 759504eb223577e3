import RuleFilter.CompileError
import RuleFilter.Connective
import RuleFilter.Proofs.Numerals
import RuleFilter.Proofs.Trimming

/-! # Conditions

A connective is written with the letters of `and` and `or` and with blanks, so a text in which any
other character stands is no connective (`read?_eq_none_of_mem`). The text of a document other than
a string always has such a character (`read?_text`): a bracket, a digit or a sign, the point or the
exponent of a double, or a letter of a literal. -/

namespace RuleFilter

/-! ### Connectives -/

namespace Connective

/-- The letters of the two connectives. -/
def letters : List Char :=
  ['a', 'n', 'd', 'o', 'r']

/-- A character that no connective is written with. -/
def Foreign (c : Char) : Prop :=
  Text.isBlank c = false ∧ c.toLower ∉ letters

instance (c : Char) : Decidable (Foreign c) := by
  unfold Foreign
  infer_instance

theorem read?_eq_none_of_mem {text : String} {c : Char} (h : c ∈ text.toList) (hc : Foreign c) :
    read? text = none := by
  have hmem : c.toLower ∈ (Text.lowercase (Text.trimmed text)).toList := by
    unfold Text.lowercase Text.trimmed
    rw [String.toList_ofList, String.toList_ofList]
    exact List.mem_map_of_mem (Text.mem_trim h hc.1)
  unfold read?
  simp only
  split_ifs with hand hor
  · have hsub : "and".toList ⊆ letters := by decide
    rw [hand] at hmem
    exact absurd (hsub hmem) hc.2
  · have hsub : "or".toList ⊆ letters := by decide
    rw [hor] at hmem
    exact absurd (hsub hmem) hc.2
  · rfl

theorem foreign_of_isDigit {c : Char} (h : c.isDigit = true) : Foreign c := by
  refine ⟨isBlank_of_isWordChar (isWordChar_of_isDigit h), ?_⟩
  rw [toLower_of_isDigit h]
  intro hmem
  simp only [letters, List.mem_cons, List.not_mem_nil, or_false] at hmem
  rcases hmem with rfl | rfl | rfl | rfl | rfl <;> exact absurd h (by decide)

/-! ### Texts of documents -/

theorem exists_foreign_int (n : Int) : ∃ c ∈ (toString n).toList, Foreign c := by
  obtain ⟨c, hc⟩ := List.exists_mem_of_ne_nil _ (Nat.toDigits_ne_nil (n := n.natAbs) (b := 10))
  refine ⟨c, ?_, foreign_of_isDigit (isDigit_toDigits c hc)⟩
  rw [toList_toString]
  simp [hc]

/-- A double has a point or an exponent. -/
theorem exists_foreign_document {x : Binary64} (h : x.isFinite = true) :
    ∃ c ∈ Binary64.document.write x, Foreign c := by
  obtain ⟨whole, mark, rest, heq, htext⟩ := Binary64.write_document_eq h
  refine ⟨mark, by rw [heq]; simp, ?_⟩
  rcases htext.marked with rfl | rfl <;> decide

/-- **The text of a document other than a string is no connective.** -/
theorem read?_text {v : Json} (h : ∀ s, v ≠ .str s) : read? v.text = none := by
  have hmem : ∃ c ∈ v.compact, Foreign c := by
    cases v with
    | null => exact ⟨'u', by decide, by decide⟩
    | bool b =>
      cases b with
      | true => exact ⟨'t', by decide, by decide⟩
      | false => exact ⟨'f', by decide, by decide⟩
    | num n =>
      cases n with
      | int n => exact exists_foreign_int n
      | float x =>
        show ∃ c ∈ Number.write (.float x), Foreign c
        unfold Number.write
        simp only
        split_ifs with hx
        · exact exists_foreign_document hx
        · exact ⟨'u', by decide, by decide⟩
    | str s => exact absurd rfl (h s)
    | arr items => exact ⟨'[', List.mem_cons_self, by decide⟩
    | obj members => exact ⟨'{', List.mem_cons_self, by decide⟩
  obtain ⟨c, hc, hforeign⟩ := hmem
  refine read?_eq_none_of_mem ?_ hforeign
  unfold Json.text
  rwa [String.toList_ofList]

end Connective

end RuleFilter
