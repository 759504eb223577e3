import RuleFilter.Filter.Named
import RuleFilter.Proofs.References
import RuleFilter.Proofs.Clause.Token

/-! # The tokens of a filter

A filter is well formed if its fields are paths, its placeholders are words, every comparison has a
right-hand side that suits it and every group has two parts at least. The text of a well-formed
filter is the layout of its tokens (`Filter.writes_tokens`), all of which are whole
(`Filter.isWhole_tokens`), so they are found again in it (`Filter.scan_text`). -/

namespace RuleFilter

open Clause

/-! ### Well-formed filters -/

/-- Whether the right-hand side may stand behind a comparison. -/
def Operand.suits {α : Type} (c : Comparison) : Operand α → Bool
  | .none => c.isNullCheck
  | .blank => c = .equal || c = .notEqual
  | .single _ => !c.isNullCheck && !c.takesSeveral
  | .list as => c.takesSeveral && !c.isRange && !as.isEmpty
  | .range _ _ => c.isRange

/-- A path is compared with words, and the right-hand side suits the comparison. -/
def Predicate.isWellFormed (p : Predicate String) : Bool :=
  Identifier.isPath p.field && p.operand.toList.all (fun name => Identifier.isWord name.toList) &&
    p.operand.suits p.comparison

namespace Filter

mutual

/-- Every comparison is well formed and every group has two parts at least. -/
def isWellFormed : Filter String → Bool
  | .leaf p => p.isWellFormed
  | .group _ parts => 2 ≤ parts.length && allWellFormed parts

/-- All filters of several are well formed. -/
def allWellFormed : List (Filter String) → Bool
  | [] => true
  | part :: rest => part.isWellFormed && allWellFormed rest

end

theorem allWellFormed_eq_true_iff (parts : List (Filter String)) :
    allWellFormed parts ↔ ∀ part ∈ parts, part.isWellFormed := by
  induction parts with
  | nil => simp [allWellFormed]
  | cons part rest ih => rw [allWellFormed, Bool.and_eq_true, ih, List.forall_mem_cons]

theorem isWellFormed_group (c : Connective) (parts : List (Filter String)) :
    (group c parts).isWellFormed ↔ 2 ≤ parts.length ∧ ∀ part ∈ parts, part.isWellFormed := by
  rw [isWellFormed, Bool.and_eq_true, decide_eq_true_iff, allWellFormed_eq_true_iff]

end Filter

/-! ### Tokens -/

/-- The words of a comparison. -/
def Comparison.words (c : Comparison) : List String :=
  (c.sql.toList.splitOn ' ').map String.ofList

namespace Operand

/-- The tokens of the names of a list behind its first one, up to the closing bracket. -/
def furtherNames : List String → List Token
  | [] => [.closing]
  | n :: ns => .comma :: .name n :: furtherNames ns

/-- The tokens of the names of a list, up to the closing bracket. -/
def names : List String → List Token
  | [] => [.closing]
  | n :: ns => .name n :: furtherNames ns

/-- The tokens of a right-hand side. -/
def tokens : Operand String → List Token
  | .none => []
  | .blank => [.blank]
  | .single n => [.name n]
  | .list ns => .opening :: names ns
  | .range low high => [.name low, .word "AND", .name high]

end Operand

/-- The tokens of a comparison. -/
def Predicate.tokens (p : Predicate String) : List Token :=
  .word p.field :: p.comparison.words.map .word ++ p.operand.tokens

namespace Filter

mutual

/-- The tokens of a filter. -/
def tokens : Filter String → List Token
  | .leaf p => p.tokens
  | .group c parts => List.intercalate [.word c.keyword] (tokensOfParts parts)

/-- The tokens of the parts of a group. -/
def tokensOfParts : List (Filter String) → List (List Token)
  | [] => []
  | part :: rest =>
    (if part.isGroup then .opening :: part.tokens ++ [.closing] else part.tokens) ::
      tokensOfParts rest

end

/-- The text of a part of a group. -/
def writePart (f : Filter String) : List Char :=
  if f.isGroup then bracketed f.write else f.write

/-- The tokens of a part of a group. -/
def partTokens (f : Filter String) : List Token :=
  if f.isGroup then .opening :: f.tokens ++ [.closing] else f.tokens

theorem writeParts_eq (parts : List (Filter String)) : writeParts parts = parts.map writePart := by
  induction parts with
  | nil => rfl
  | cons part rest ih => rw [writeParts, ih, List.map_cons, writePart]

theorem tokensOfParts_eq (parts : List (Filter String)) :
    tokensOfParts parts = parts.map partTokens := by
  induction parts with
  | nil => rfl
  | cons part rest ih => rw [tokensOfParts, ih, List.map_cons, partTokens]

end Filter

/-- Between the first of several lists and each other one stands the separator. -/
theorem intercalate_cons {α : Type} (separator first : List α) : ∀ rest : List (List α),
    List.intercalate separator (first :: rest) = first ++ rest.flatMap (separator ++ ·)
  | [] => by simp
  | second :: rest => by
    rw [List.intercalate_cons_cons, intercalate_cons separator second rest, List.flatMap_cons,
      List.append_assoc, List.append_assoc]

theorem Filter.write_group (c : Connective) (first : Filter String) (rest : List (Filter String)) :
    (Filter.group c (first :: rest)).write =
      first.writePart ++ rest.flatMap fun part => c.separator ++ part.writePart := by
  rw [Filter.write, Filter.writeParts_eq, List.map_cons, intercalate_cons, List.flatMap_map]

theorem Filter.tokens_group (c : Connective) (first : Filter String)
    (rest : List (Filter String)) : (Filter.group c (first :: rest)).tokens =
      first.partTokens ++ rest.flatMap fun part => .word c.keyword :: part.partTokens := by
  rw [Filter.tokens, Filter.tokensOfParts_eq, List.map_cons, intercalate_cons, List.flatMap_map]
  rfl

/-! ### The text is the layout of the tokens -/

/-- The space in front of a token, unless it is the first behind an opening bracket. -/
def lead (hugging : Bool) : List Char :=
  if hugging then [] else [' ']

@[simp]
theorem flatten_pieces_opening (hugging : Bool) (ts : List Token) :
    (pieces hugging (.opening :: ts)).flatten =
      lead hugging ++ '(' :: (pieces true ts).flatten := by
  cases hugging <;> rfl

@[simp]
theorem flatten_pieces_closing (hugging : Bool) (ts : List Token) :
    (pieces hugging (.closing :: ts)).flatten = ')' :: (pieces false ts).flatten := by
  cases hugging <;> rfl

@[simp]
theorem flatten_pieces_comma (hugging : Bool) (ts : List Token) :
    (pieces hugging (.comma :: ts)).flatten = ',' :: (pieces false ts).flatten := by
  cases hugging <;> rfl

@[simp]
theorem flatten_pieces_name (hugging : Bool) (n : String) (ts : List Token) :
    (pieces hugging (.name n :: ts)).flatten =
      lead hugging ++ namedPlaceholder n ++ (pieces false ts).flatten := by
  cases hugging <;> rfl

/-- The text of tokens in front of others is `cs`, with the space that is due before it. -/
def Writes (ts : List Token) (cs : List Char) : Prop :=
  ∀ hugging rest, (pieces hugging (ts ++ rest)).flatten =
    lead hugging ++ cs ++ (pieces false rest).flatten

theorem Writes.layout {ts : List Token} {cs : List Char} (h : Writes ts cs) : layout ts = cs := by
  have := h true []
  simpa [Clause.layout, lead, pieces] using this

/-- A token between two spaces. -/
theorem writes_singleton {t : Token} (hprevious : t.hugsPrevious = false)
    (hnext : t.hugsNext = false) : Writes [t] t.text := by
  intro hugging rest
  cases hugging <;> simp [pieces, lead, hprevious, hnext]

theorem Writes.append {ts us : List Token} {cs ds : List Char} (hts : Writes ts cs)
    (hus : Writes us ds) : Writes (ts ++ us) (cs ++ ' ' :: ds) := by
  intro hugging rest
  rw [List.append_assoc, hts, hus]
  simp [lead]

/-- Tokens with more of them behind, each time with a token and a space in between. -/
theorem Writes.flatMap {α : Type} {ts : List Token} {cs : List Char} (hts : Writes ts cs)
    (tokens : α → List Token) (text : α → List Char) : ∀ as : List α,
    (∀ a ∈ as, Writes (tokens a) (text a)) →
      Writes (ts ++ as.flatMap tokens) (cs ++ as.flatMap fun a => ' ' :: text a)
  | [], _ => by simpa using hts
  | a :: as, has => by
    obtain ⟨ha, has⟩ := List.forall_mem_cons.mp has
    have := Writes.flatMap (hts.append ha) tokens text as has
    simpa using this

theorem Writes.bracketed {ts : List Token} {cs : List Char} (h : Writes ts cs) :
    Writes (.opening :: ts ++ [.closing]) (Filter.bracketed cs) := by
  intro hugging rest
  have hinner := h true (.closing :: rest)
  rw [flatten_pieces_closing] at hinner
  simp [hinner, lead, Filter.bracketed]

/-- The text of a comparison is its words, with a space before each of them. -/
theorem Comparison.space_cons_sql (c : Comparison) :
    ' ' :: c.sql.toList = c.words.flatMap fun w => ' ' :: w.toList := by
  cases c <;> decide

theorem Connective.separator_eq (c : Connective) (cs : List Char) :
    c.separator ++ cs = ' ' :: (c.keyword.toList ++ ' ' :: cs) := by
  simp [separator]

namespace Operand

theorem pieces_furtherNames (rest : List Token) : ∀ ns : List String,
    (pieces false (furtherNames ns ++ rest)).flatten =
      ns.flatMap (fun n => [',', ' '] ++ namedPlaceholder n) ++ ')' :: (pieces false rest).flatten
  | [] => by simp [furtherNames]
  | n :: ns => by simp [furtherNames, lead, pieces_furtherNames rest ns]

theorem pieces_names (rest : List Token) : ∀ ns : List String,
    (pieces true (names ns ++ rest)).flatten =
      List.intercalate [',', ' '] (ns.map namedPlaceholder) ++ ')' :: (pieces false rest).flatten
  | [] => by simp [names]
  | n :: ns => by
    rw [List.map_cons, intercalate_cons, List.flatMap_map]
    simp [names, lead, pieces_furtherNames]

/-- A right-hand side is nothing, or its tokens behind a space. -/
theorem writes_tokens : ∀ o : Operand String,
    o.tokens = [] ∧ o.write = [] ∨ ∃ cs, o.write = ' ' :: cs ∧ Writes o.tokens cs
  | .none => .inl ⟨rfl, rfl⟩
  | .blank => .inr ⟨_, rfl, writes_singleton rfl rfl⟩
  | .single n => .inr ⟨_, rfl, writes_singleton rfl rfl⟩
  | .list ns => .inr ⟨_, rfl, fun hugging rest => by simp [tokens, pieces_names]⟩
  | .range low high => .inr
    ⟨namedPlaceholder low ++ ' ' :: "AND".toList ++ ' ' :: namedPlaceholder high, by simp [write],
      ((writes_singleton (t := .name low) rfl rfl).append
        (writes_singleton (t := .word "AND") rfl rfl)).append
          (writes_singleton (t := .name high) rfl rfl)⟩

end Operand

theorem Predicate.writes_tokens (p : Predicate String) : Writes p.tokens p.write := by
  have hwords : Writes (.word p.field :: p.comparison.words.map .word)
      (p.field.toList ++ ' ' :: p.comparison.sql.toList) := by
    rw [Comparison.space_cons_sql, ← List.singleton_append, ← List.flatMap_pure_eq_map]
    exact Writes.flatMap (writes_singleton (t := .word p.field) rfl rfl) _ _ _
      fun w _ => writes_singleton (t := .word w) rfl rfl
  obtain ⟨htokens, hwrite⟩ | ⟨cs, hwrite, hoperand⟩ := p.operand.writes_tokens
  · simpa [tokens, write, htokens, hwrite] using hwords
  · simpa [tokens, write, hwrite] using hwords.append hoperand

namespace Filter

theorem writes_partTokens {f : Filter String} (h : Writes f.tokens f.write) :
    Writes f.partTokens f.writePart := by
  unfold partTokens writePart
  split_ifs
  · exact h.bracketed
  · exact h

/-- **The text of a well-formed filter is the layout of its tokens**, whatever stands before and
behind it. -/
theorem writes_tokens (f : Filter String) (hf : f.isWellFormed) : Writes f.tokens f.write := by
  induction f with
  | leaf p => exact p.writes_tokens
  | group c parts ih =>
    obtain ⟨htwo, hparts⟩ := (isWellFormed_group c parts).mp hf
    have hpart : ∀ part ∈ parts, Writes part.partTokens part.writePart := fun part hpart =>
      writes_partTokens (ih part hpart (hparts part hpart))
    cases parts with
    | nil => cases htwo
    | cons first rest =>
      obtain ⟨hfirst, hrest⟩ := List.forall_mem_cons.mp hpart
      rw [write_group, tokens_group]
      simp only [Connective.separator_eq]
      refine hfirst.flatMap (fun part => .word c.keyword :: part.partTokens)
        (fun part => c.keyword.toList ++ ' ' :: part.writePart) rest fun part hmem => ?_
      exact (writes_singleton (t := .word c.keyword) rfl rfl).append (hrest part hmem)

end Filter

/-! ### The tokens are whole -/

namespace Identifier

theorem isPathPart_of_isWord {cs : List Char} (h : isWord cs) : ∀ c ∈ cs, isPathPart c := by
  cases cs with
  | nil => cases h
  | cons c rest =>
    simp only [isWord, isWordStart, Bool.and_eq_true, Bool.or_eq_true, List.all_eq_true] at h
    refine List.forall_mem_cons.mpr ⟨?_, fun d hd => ?_⟩
    · simp only [isPathPart, isWordPart, Char.isAlphanum, Bool.or_eq_true]
      exact .inl (h.1.imp .inl id)
    · simp [isPathPart, h.2 d hd]

theorem isPathPart_of_isPath {path : String} (h : isPath path) :
    path.toList ≠ [] ∧ ∀ c ∈ path.toList, isPathPart c := by
  simp only [isPath, segments, List.all_eq_true] at h
  constructor
  · intro hempty
    rw [hempty] at h
    cases h [] (by simp)
  · intro c hc
    have hjoin : List.intercalate ['.'] (path.toList.splitOn '.') = path.toList :=
      List.intercalate_splitOn '.'
    rw [← hjoin] at hc
    cases hsegments : path.toList.splitOn '.' with
    | nil => rw [hsegments] at hc; cases hc
    | cons first rest =>
      rw [hsegments] at h hc
      rw [intercalate_cons, List.mem_append, List.mem_flatMap] at hc
      obtain hc | ⟨segment, hsegment, hc⟩ := hc
      · exact isPathPart_of_isWord (h first (by simp)) c hc
      · obtain rfl | hc := List.mem_cons.mp hc
        · decide
        · exact isPathPart_of_isWord (h segment (by simp [hsegment])) c hc

end Identifier

theorem Comparison.isWhole_words (c : Comparison) : ∀ w ∈ c.words, (Token.word w).isWhole := by
  cases c <;> decide

theorem Connective.isWhole_keyword (c : Connective) : (Token.word c.keyword).isWhole := by
  cases c <;> decide

theorem Clause.Token.isWhole_name {n : String} (h : Identifier.isWord n.toList) :
    (Token.name n).isWhole := by
  simpa [isWhole] using Identifier.isPathPart_of_isWord h

namespace Operand

theorem isWhole_furtherNames : ∀ ns : List String, (∀ n ∈ ns, Identifier.isWord n.toList) →
    ∀ t ∈ furtherNames ns, t.isWhole
  | [], _ => by decide
  | n :: ns, hns => by
    obtain ⟨hn, hns⟩ := List.forall_mem_cons.mp hns
    simpa [furtherNames, Token.isWhole_name hn, show Token.comma.isWhole from rfl] using
      isWhole_furtherNames ns hns

theorem isWhole_names : ∀ ns : List String, (∀ n ∈ ns, Identifier.isWord n.toList) →
    ∀ t ∈ names ns, t.isWhole
  | [], _ => by decide
  | n :: ns, hns => by
    obtain ⟨hn, hns⟩ := List.forall_mem_cons.mp hns
    simpa [names, Token.isWhole_name hn] using isWhole_furtherNames ns hns

theorem isWhole_tokens : ∀ o : Operand String, (∀ n ∈ o.toList, Identifier.isWord n.toList) →
    ∀ t ∈ o.tokens, t.isWhole
  | .none, _ | .blank, _ => by decide
  | .single n, h => by simpa [tokens] using Token.isWhole_name (h n (by simp [toList]))
  | .list ns, h => by
    simpa [tokens, show Token.opening.isWhole from rfl] using isWhole_names ns h
  | .range low high, h => by
    simp only [toList, List.forall_mem_cons] at h
    simpa [tokens, Token.isWhole_name h.1, Token.isWhole_name h.2.1] using
      (by decide : (Token.word "AND").isWhole)

end Operand

theorem Predicate.isWhole_tokens {p : Predicate String} (h : p.isWellFormed) :
    ∀ t ∈ p.tokens, t.isWhole := by
  simp only [isWellFormed, Bool.and_eq_true, List.all_eq_true] at h
  obtain ⟨hempty, hpath⟩ := Identifier.isPathPart_of_isPath h.1.1
  have hfield : (Token.word p.field).isWhole := by
    simpa [Token.isWhole, hempty] using Or.inl hpath
  intro t ht
  simp only [tokens, List.cons_append, List.mem_cons, List.mem_append, List.mem_map] at ht
  obtain rfl | ⟨w, hw, rfl⟩ | ht := ht
  · exact hfield
  · exact p.comparison.isWhole_words w hw
  · exact p.operand.isWhole_tokens h.1.2 t ht

namespace Filter

theorem isWhole_partTokens {f : Filter String} (h : ∀ t ∈ f.tokens, t.isWhole) :
    ∀ t ∈ f.partTokens, t.isWhole := by
  unfold partTokens
  split_ifs
  · simpa [show Token.opening.isWhole from rfl, show Token.closing.isWhole from rfl, or_imp,
      forall_and] using h
  · exact h

theorem isWhole_tokens (f : Filter String) (hf : f.isWellFormed) : ∀ t ∈ f.tokens, t.isWhole := by
  induction f with
  | leaf p => exact p.isWhole_tokens hf
  | group c parts ih =>
    obtain ⟨htwo, hparts⟩ := (isWellFormed_group c parts).mp hf
    have hpart : ∀ part ∈ parts, ∀ t ∈ part.partTokens, t.isWhole := fun part hpart =>
      isWhole_partTokens (ih part hpart (hparts part hpart))
    cases parts with
    | nil => cases htwo
    | cons first rest =>
      obtain ⟨hfirst, hrest⟩ := List.forall_mem_cons.mp hpart
      intro t ht
      simp only [tokens_group, List.mem_append, List.mem_flatMap, List.mem_cons] at ht
      obtain ht | ⟨part, hmem, rfl | ht⟩ := ht
      · exact hfirst t ht
      · exact c.isWhole_keyword
      · exact hrest part hmem t ht

/-- **The tokens of a well-formed filter are found in its text.** -/
theorem scan_text {f : Filter String} (hf : f.isWellFormed) : scan f.text = f.tokens := by
  rw [text, ← (writes_tokens f hf).layout]
  exact scan_layout (isWhole_tokens f hf)

end Filter

end RuleFilter
