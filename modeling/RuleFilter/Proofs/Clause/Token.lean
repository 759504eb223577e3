import RuleFilter.Identifier
import Mathlib.Data.List.SplitBy

/-! # Tokens of a clause

The text of a clause is cut wherever two neighbouring characters do not belong together (`glued`):
characters of a path and symbols each stay with their own kind, a colon stays with what follows it,
and two quotes are one piece. A piece that is a space is no token, every other piece is one
(`scan`), so that nothing but spaces is lost (`flatMap_text_scan`).

Tokens that are written with a space between any two, except behind an opening bracket and in front
of a closing bracket or a comma (`layout`), are found again by cutting the text (`scan_layout`). -/

namespace RuleFilter.Clause

/-- A token of a clause. -/
inductive Token where
  | opening
  | closing
  | comma
  /-- The empty text literal. -/
  | blank
  /-- A field, a keyword or a symbol of comparison; which of them shows where it stands. -/
  | word (w : String)
  /-- A placeholder by its name. -/
  | name (n : String)
  deriving DecidableEq

/-! ### Reading tokens -/

/-- A character of a dotted path. -/
def isPathPart (c : Char) : Bool :=
  Identifier.isWordPart c || c == '.'

/-- A character of a symbol of comparison. -/
def isSymbol (c : Char) : Bool :=
  c == '=' || c == '!' || c == '<' || c == '>'

/-- Whether two neighbouring characters belong to one piece. -/
def glued (a b : Char) : Bool :=
  (isPathPart a || a == ':') && isPathPart b || isSymbol a && isSymbol b || a == '\'' && b == '\''

namespace Token

/-- The token of a piece; a space is none. -/
def ofPiece? : List Char → Option Token
  | [' '] => none
  | ['('] => some .opening
  | [')'] => some .closing
  | [','] => some .comma
  | ['\'', '\''] => some .blank
  | ':' :: cs => some (.name (String.ofList cs))
  | cs => some (.word (String.ofList cs))

end Token

/-- The tokens of a text. -/
def scan (text : String) : List Token :=
  (text.toList.splitBy glued).filterMap Token.ofPiece?

/-! ### Writing tokens -/

namespace Token

/-- The text of a token. -/
def text : Token → List Char
  | .opening => ['(']
  | .closing => [')']
  | .comma => [',']
  | .blank => ['\'', '\'']
  | .word w => w.toList
  | .name n => ':' :: n.toList

/-- The token of a single piece of text: a word is all of one kind, and a name has only characters
of paths. -/
def isWhole : Token → Bool
  | .word w =>
    !w.toList.isEmpty && (w.toList.all isPathPart || w.toList.all isSymbol)
  | .name n => n.toList.all isPathPart
  | _ => true

/-- There is no space behind the token. -/
def hugsNext : Token → Bool
  | .opening => true
  | _ => false

/-- There is no space in front of the token. -/
def hugsPrevious : Token → Bool
  | .closing | .comma => true
  | _ => false

end Token

/-- The pieces of tokens with their spaces; no space is written before the first of them behind an
opening bracket. -/
def pieces : Bool → List Token → List (List Char)
  | _, [] => []
  | hugging, t :: ts =>
    (if hugging || t.hugsPrevious then [] else [[' ']]) ++ t.text :: pieces t.hugsNext ts

/-- The text of tokens. -/
def layout (ts : List Token) : List Char :=
  (pieces true ts).flatten

/-! ### Characters that stand alone -/

/-- The characters that are a piece of their own wherever they stand. -/
def isLone (c : Char) : Bool :=
  c == ' ' || c == '(' || c == ')' || c == ','

theorem glued_of_isLone_left {a : Char} (h : isLone a) (b : Char) : glued a b = false := by
  simp only [isLone, Bool.or_eq_true, beq_iff_eq] at h
  obtain ((rfl | rfl) | rfl) | rfl := h <;> rfl

theorem glued_of_isLone_right (a : Char) {b : Char} (h : isLone b) : glued a b = false := by
  have hpath : isPathPart b = false ∧ isSymbol b = false ∧ (b == '\'') = false := by
    simp only [isLone, Bool.or_eq_true, beq_iff_eq] at h
    obtain ((rfl | rfl) | rfl) | rfl := h <;> decide
  simp [glued, hpath]

/-! ### Nothing but spaces is lost -/

/-- Nothing is glued to a space. -/
theorem eq_space_of_isChain : ∀ {p : List Char}, (p.IsChain fun a b => glued a b) → ' ' ∈ p →
    p = [' ']
  | [], _, h => by cases h
  | [a], _, h => by rw [List.mem_singleton.mp h]
  | a :: b :: rest, hchain, h => by
    obtain ⟨hglued, hrest⟩ := List.isChain_cons_cons.mp hchain
    rcases List.mem_cons.mp h with rfl | h
    · rw [glued_of_isLone_left rfl b] at hglued
      cases hglued
    · have hb : b = ' ' := (List.cons.inj (eq_space_of_isChain hrest h)).1
      rw [hb, glued_of_isLone_right a rfl] at hglued
      cases hglued

theorem Token.exists_of_ne_space {p : List Char} (hp : p ≠ [' ']) :
    ∃ t, Token.ofPiece? p = some t ∧ t.text = p := by
  unfold Token.ofPiece?
  split
  · exact absurd rfl hp
  all_goals exact ⟨_, rfl, by simp [Token.text]⟩

theorem flatMap_text_filterMap : ∀ ps : List (List Char),
    (∀ p ∈ ps, p.IsChain fun a b => glued a b) →
      (ps.filterMap Token.ofPiece?).flatMap Token.text = ps.flatten.filter (· != ' ')
  | [], _ => rfl
  | p :: ps, hps => by
    obtain ⟨hp, hps⟩ := List.forall_mem_cons.mp hps
    rw [List.flatten_cons, List.filter_append, ← flatMap_text_filterMap ps hps]
    by_cases hspace : p = [' ']
    · rw [hspace]
      rfl
    · obtain ⟨t, ht, htext⟩ := Token.exists_of_ne_space hspace
      have hkept : p.filter (· != ' ') = p := by
        refine List.filter_eq_self.mpr fun c hc => bne_iff_ne.mpr ?_
        rintro rfl
        exact hspace (eq_space_of_isChain hp hc)
      rw [List.filterMap_cons_some ht, List.flatMap_cons, htext, hkept]

/-- **Nothing but spaces is lost between a text and its tokens.** -/
theorem flatMap_text_scan (text : String) :
    (scan text).flatMap Token.text = text.toList.filter (· != ' ') := by
  rw [scan, flatMap_text_filterMap _ fun _ => List.isChain_of_mem_splitBy, List.flatten_splitBy]

/-! ### Pieces are found again -/

/-- Two pieces that are cut from each other: a character that stands alone is on one side. -/
structure Cut (p q : List Char) : Prop where
  left : p ≠ []
  right : q ≠ []
  lone : (∀ c ∈ p, isLone c) ∨ ∀ c ∈ q, isLone c

theorem Cut.glued_eq_false {p q : List Char} (h : Cut p q) :
    ∃ hp hq, glued (p.getLast hp) (q.head hq) = false := by
  refine ⟨h.left, h.right, ?_⟩
  obtain hp | hq := h.lone
  · exact glued_of_isLone_left (hp _ (List.getLast_mem h.left)) _
  · exact glued_of_isLone_right _ (hq _ (List.head_mem h.right))

namespace Token

theorem text_ne_nil {t : Token} (h : t.isWhole) : t.text ≠ [] := by
  cases t with
  | word w =>
    intro hw
    simp only [text] at hw
    simp [isWhole, hw] at h
  | _ => simp [text]

theorem isLone_of_hugsNext {t : Token} (h : t.hugsNext) : ∀ c ∈ t.text, isLone c := by
  cases t with
  | opening => exact List.forall_mem_singleton.mpr rfl
  | _ => cases h

theorem isLone_of_hugsPrevious {t : Token} (h : t.hugsPrevious) : ∀ c ∈ t.text, isLone c := by
  cases t with
  | closing | comma => exact List.forall_mem_singleton.mpr rfl
  | _ => cases h

/-- A whole token is not cut. -/
theorem isChain_text {t : Token} (h : t.isWhole) : t.text.IsChain fun a b => glued a b := by
  cases t with
  | word w =>
    simp only [isWhole, Bool.and_eq_true, Bool.or_eq_true, List.all_eq_true] at h
    refine List.Pairwise.isChain (List.pairwise_of_forall_mem_list fun a ha b hb => ?_)
    obtain hpath | hsymbol := h.2
    · simp [glued, hpath a ha, hpath b hb]
    · simp [glued, hsymbol a ha, hsymbol b hb]
  | name n =>
    simp only [isWhole, List.all_eq_true] at h
    refine List.Pairwise.isChain (List.pairwise_cons.mpr ⟨fun b hb => ?_, ?_⟩)
    · simp [glued, h b hb]
    · exact List.pairwise_of_forall_mem_list fun a ha b hb => by simp [glued, h a ha, h b hb]
  | blank => decide
  | _ => exact .singleton _

/-- A character of a path or a symbol opens no other kind of token. -/
theorem not_special {c : Char} (h : isPathPart c ∨ isSymbol c) :
    isLone c = false ∧ c ≠ '\'' ∧ c ≠ ':' := by
  refine ⟨?_, ?_, ?_⟩
  · rw [← Bool.not_eq_true]
    intro hlone
    simp only [isLone, Bool.or_eq_true, beq_iff_eq] at hlone
    obtain ((rfl | rfl) | rfl) | rfl := hlone <;> revert h <;> decide
  · rintro rfl
    revert h
    decide
  · rintro rfl
    revert h
    decide

theorem ofPiece?_text {t : Token} (h : t.isWhole) : ofPiece? t.text = some t := by
  cases t with
  | word w =>
    simp only [isWhole, Bool.and_eq_true, Bool.or_eq_true, List.all_eq_true] at h
    have hspecial : ∀ c ∈ w.toList, isLone c = false ∧ c ≠ '\'' ∧ c ≠ ':' := fun c hc =>
      not_special (h.2.imp (· c hc) (· c hc))
    simp only [text]
    unfold ofPiece?
    split <;> rename_i hw
    all_goals simp_all [isLone]
  | name n => simp [text, ofPiece?]
  | _ => rfl

end Token

/-- Neighbouring pieces are cut, behind any piece that a space or a bracket ends. -/
theorem isChain_pieces : ∀ (hugging : Bool) (p : List Char) (ts : List Token), p ≠ [] →
    (hugging → ∀ c ∈ p, isLone c) → (∀ t ∈ ts, t.isWhole) →
      List.IsChain Cut (p :: pieces hugging ts)
  | _, p, [], _, _, _ => .singleton p
  | hugging, p, t :: ts, hp, hhugging, hts => by
    obtain ⟨ht, hts⟩ := List.forall_mem_cons.mp hts
    have hrest := isChain_pieces t.hugsNext t.text ts (Token.text_ne_nil ht)
      Token.isLone_of_hugsNext hts
    simp only [pieces]
    split_ifs with hspace
    · rw [Bool.or_eq_true] at hspace
      exact .cons_cons ⟨hp, Token.text_ne_nil ht,
        hspace.imp hhugging Token.isLone_of_hugsPrevious⟩ hrest
    · have hlone : ∀ c ∈ [' '], isLone c := List.forall_mem_singleton.mpr rfl
      exact .cons_cons ⟨hp, by simp, .inr hlone⟩
        (.cons_cons ⟨by simp, Token.text_ne_nil ht, .inl hlone⟩ hrest)

theorem filterMap_pieces : ∀ (hugging : Bool) (ts : List Token), (∀ t ∈ ts, t.isWhole) →
    (pieces hugging ts).filterMap Token.ofPiece? = ts
  | _, [], _ => rfl
  | hugging, t :: ts, hts => by
    obtain ⟨ht, hts⟩ := List.forall_mem_cons.mp hts
    have hspace : Token.ofPiece? [' '] = none := rfl
    simp only [pieces]
    split_ifs <;>
      simp [hspace, Token.ofPiece?_text ht, filterMap_pieces t.hugsNext ts hts]

theorem whole_of_mem_pieces : ∀ (hugging : Bool) (ts : List Token), (∀ t ∈ ts, t.isWhole) →
    ∀ p ∈ pieces hugging ts, p ≠ [] ∧ p.IsChain fun a b => glued a b
  | _, [], _, p, hp => by cases hp
  | hugging, t :: ts, hts, p, hp => by
    obtain ⟨ht, hts⟩ := List.forall_mem_cons.mp hts
    simp only [pieces, List.mem_append, List.mem_cons] at hp
    obtain hp | rfl | hp := hp
    · split_ifs at hp
      · cases hp
      · rw [List.mem_singleton.mp hp]
        exact ⟨by simp, .singleton _⟩
    · exact ⟨Token.text_ne_nil ht, Token.isChain_text ht⟩
    · exact whole_of_mem_pieces t.hugsNext ts hts p hp

/-- **Tokens are found again in their text.** -/
theorem scan_layout {ts : List Token} (hts : ∀ t ∈ ts, t.isWhole) :
    scan (String.ofList (layout ts)) = ts := by
  have hchain : (pieces true ts).IsChain Cut :=
    (isChain_pieces true ['('] ts (by simp) (fun _ => List.forall_mem_singleton.mpr rfl) hts).tail
  have hwhole := whole_of_mem_pieces true ts hts
  have hsplit : (pieces true ts).flatten.splitBy glued = pieces true ts :=
    List.splitBy_flatten (fun h => (hwhole [] h).1 rfl) (fun p hp => (hwhole p hp).2)
      (hchain.imp fun _ _ => Cut.glued_eq_false)
  rw [scan, String.toList_ofList, layout, hsplit, filterMap_pieces true ts hts]

end RuleFilter.Clause
