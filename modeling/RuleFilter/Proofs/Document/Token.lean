import RuleFilter.Proofs.Numerals

/-! # The tokens of a written document

The compact text of a document is scanned into the tokens of the document (`scans_compact`). A
quoted text gives back the text, because every escape has the code of the character it stands for
(`codes?_escapeChar`) and no character is half of a surrogate pair; a word ends where a character
follows that is none of a word. -/

namespace RuleFilter.Json

/-! ### Quoted texts -/

/-- How a character is written: as an escape of one letter, as an escape with its code, or as it
is. -/
theorem escapeChar_cases (c : Char) :
    (∃ d, escapedChar? d = some c ∧ escapeChar c = ['\\', d]) ∨
    (c.toNat < 0x20 ∧ escapeChar c =
      ['\\', 'u', '0', '0', Nat.digitChar (c.toNat / 16), Nat.digitChar (c.toNat % 16)]) ∨
    (c ≠ '"' ∧ c ≠ '\\' ∧ 0x20 ≤ c.toNat ∧ escapeChar c = [c]) := by
  by_cases hletter : c ∈ ['"', '\\', '\x08', '\x0c', '\n', '\r', '\t']
  · simp only [List.mem_cons, List.not_mem_nil, or_false] at hletter
    rcases hletter with rfl | rfl | rfl | rfl | rfl | rfl | rfl
    all_goals exact Or.inl ⟨_, rfl, rfl⟩
  · simp only [List.mem_cons, List.not_mem_nil, or_false, not_or] at hletter
    obtain ⟨hmark, hslash, hb, hf, hn, hr, ht⟩ := hletter
    unfold escapeChar
    rw [if_neg hmark, if_neg hslash, if_neg hb, if_neg hf, if_neg hn, if_neg hr, if_neg ht]
    split_ifs with hcontrol
    · exact Or.inr (Or.inl ⟨hcontrol, rfl⟩)
    · exact Or.inr (Or.inr ⟨hmark, hslash, Nat.not_lt.mp hcontrol, rfl⟩)

theorem hexUnit?_control {n : Nat} (h : n < 0x20) :
    hexUnit? '0' '0' (Nat.digitChar (n / 16)) (Nat.digitChar (n % 16)) = some n := by
  decide +revert

/-- **A written character has the code of the character.** -/
theorem codes?_escapeChar (c : Char) (rest : List Char) :
    codes? (escapeChar c ++ rest) = (codes? rest).map (c.toNat :: ·) := by
  rcases escapeChar_cases c with ⟨d, hd, heq⟩ | ⟨hcontrol, heq⟩ | ⟨-, hslash, hvisible, heq⟩
  · have hu : d ≠ 'u' := by
      rintro rfl
      cases hd
    rw [heq, List.cons_append, List.singleton_append, codes?]
    · rw [hd]
      cases codes? rest <;> rfl
    · rintro _ _ _ _ _ rfl
      exact absurd rfl hu
  · rw [heq]
    show codes? ('\\' :: 'u' :: '0' :: '0' :: _ :: _ :: rest) = _
    rw [codes?, hexUnit?_control hcontrol]
    cases codes? rest <;> rfl
  · rw [heq, List.singleton_append, codes?]
    · exact if_neg (not_or.mpr ⟨hslash, Nat.not_lt.mpr hvisible⟩)
    · rintro _ _ _ _ _ rfl
      exact absurd rfl hslash
    · rintro _ _ rfl
      exact absurd rfl hslash

theorem codes?_escaped : ∀ cs : List Char,
    codes? (cs.flatMap escapeChar) = some (cs.map Char.toNat)
  | [] => rfl
  | c :: rest => by
    rw [List.flatMap_cons, codes?_escapeChar, codes?_escaped rest]
    rfl

/-- No character is half of a surrogate pair. -/
theorem not_surrogate (c : Char) :
    isHighSurrogate c.toNat = false ∧ isLowSurrogate c.toNat = false := by
  have hvalid : c.toNat < 0xD800 ∨ (0xDFFF < c.toNat ∧ c.toNat < 0x110000) := c.valid
  unfold isHighSurrogate isLowSurrogate
  simp only [Bool.and_eq_false_iff, decide_eq_false_iff_not]
  omega

theorem joinCodes?_map_toNat : ∀ cs : List Char, joinCodes? (cs.map Char.toNat) = some cs
  | [] => rfl
  | [c] => by
    obtain ⟨hhigh, hlow⟩ := not_surrogate c
    rw [List.map_singleton, joinCodes?, hhigh, hlow, Char.ofNat_toNat]
    rfl
  | c :: d :: rest => by
    obtain ⟨hhigh, hlow⟩ := not_surrogate c
    have ih := joinCodes?_map_toNat (d :: rest)
    rw [List.map_cons] at ih
    rw [List.map_cons, List.map_cons, joinCodes?, hhigh, hlow, ih, Char.ofNat_toNat]
    rfl

/-- **A quoted text stands for the text.** -/
theorem unquote?_escaped (s : String) : unquote? (s.toList.flatMap escapeChar) = some s := by
  unfold unquote?
  rw [codes?_escaped, Option.bind_some, joinCodes?_map_toNat, Option.map_some, String.ofList_toList]

/-! ### Steps of a scan -/

namespace Scan

variable {scan scan' : Scan} {c : Char} {cs rest : List Char}

theorem tokens?_cons (scan : Scan) (c : Char) (rest : List Char) :
    scan.tokens? (c :: rest) =
      (scan.step? c).bind fun next => (next.2.tokens? rest).map (next.1 ++ ·) := by
  rw [tokens?]
  cases scan.step? c with
  | none => rfl
  | some next => cases htokens : next.2.tokens? rest <;> simp [htokens]

/-- A character that completes tokens. -/
theorem tokens?_of_step {first : List Token} (h : scan.step? c = some (first, scan')) :
    scan.tokens? (c :: rest) = (scan'.tokens? rest).map (first ++ ·) := by
  rw [tokens?_cons, h, Option.bind_some]

/-- A character that completes none. -/
theorem tokens?_of_silent (h : scan.step? c = some ([], scan')) :
    scan.tokens? (c :: rest) = scan'.tokens? rest := by
  rw [tokens?_of_step h]
  exact Option.map_id'

theorem tokens?_punctuation {token : Token} (h : punctuation? c = some token) :
    between.tokens? (c :: rest) = (between.tokens? rest).map (token :: ·) := by
  have hstep : between.step? c = some ([token], between) := by
    unfold punctuation? at h
    split at h <;> cases h <;> rfl
  exact tokens?_of_step hstep

theorem tokens?_spaces {spaces : List Char} (h : ∀ c ∈ spaces, isSpace c = true) :
    between.tokens? (spaces ++ rest) = between.tokens? rest := by
  induction spaces with
  | nil => rfl
  | cons c spaces ih =>
    obtain ⟨hc, hspaces⟩ := List.forall_mem_cons.mp h
    have hstep : between.step? c = some ([], between) := if_pos hc
    rw [List.cons_append, tokens?_of_silent hstep, ih hspaces]

/-! ### Scanned texts -/

theorem tokens?_inText_plain (body : List Char) (hmark : c ≠ '"') (hslash : c ≠ '\\') :
    (inText body false).tokens? (c :: rest) = (inText (c :: body) false).tokens? rest := by
  refine tokens?_of_silent ?_
  rw [step?, if_neg hmark, beq_eq_false_iff_ne.mpr hslash]

theorem tokens?_inText_escape (body : List Char) (d : Char) :
    (inText body false).tokens? ('\\' :: d :: rest) =
      (inText (d :: '\\' :: body) false).tokens? rest :=
  (tokens?_of_silent rfl).trans (tokens?_of_silent rfl)

/-- The end of a text is not found inside a written character. -/
theorem tokens?_inText_escapeChar (body : List Char) (c : Char) (rest : List Char) :
    (inText body false).tokens? (escapeChar c ++ rest) =
      (inText ((escapeChar c).reverse ++ body) false).tokens? rest := by
  rcases escapeChar_cases c with ⟨d, -, heq⟩ | ⟨hcontrol, heq⟩ | ⟨hmark, hslash, -, heq⟩
  · rw [heq]
    exact tokens?_inText_escape body d
  · have hdigit : ∀ n < 16, Nat.digitChar n ≠ '"' ∧ Nat.digitChar n ≠ '\\' := by decide
    obtain ⟨hmark, hslash⟩ := hdigit (c.toNat / 16) (by omega)
    obtain ⟨hmark', hslash'⟩ := hdigit (c.toNat % 16) (by omega)
    rw [heq]
    show (inText body false).tokens? ('\\' :: 'u' :: '0' :: '0' :: _ :: _ :: rest) = _
    rw [tokens?_inText_escape, tokens?_inText_plain _ (by decide) (by decide),
      tokens?_inText_plain _ (by decide) (by decide), tokens?_inText_plain _ hmark hslash,
      tokens?_inText_plain _ hmark' hslash']
    rfl
  · rw [heq]
    exact tokens?_inText_plain body hmark hslash

theorem tokens?_inText_escaped (rest : List Char) : ∀ (cs body : List Char),
    (inText body false).tokens? (cs.flatMap escapeChar ++ rest) =
      (inText ((cs.flatMap escapeChar).reverse ++ body) false).tokens? rest
  | [], _ => rfl
  | c :: cs, body => by
    rw [List.flatMap_cons, List.append_assoc, tokens?_inText_escapeChar,
      tokens?_inText_escaped rest cs, List.reverse_append, List.append_assoc]

/-- **A quoted text is scanned as one token.** -/
theorem tokens?_quote (s : String) (rest : List Char) :
    between.tokens? (quote s ++ rest) = (between.tokens? rest).map (.text s :: ·) := by
  have hclosing : (inText (s.toList.flatMap escapeChar).reverse false).step? '"' =
      some ([.text s], between) := by
    rw [step?, if_pos rfl, List.reverse_reverse, unquote?_escaped]
    rfl
  unfold quote
  rw [List.cons_append, List.cons_append, List.append_assoc, tokens?_of_silent rfl,
    tokens?_inText_escaped,
    List.append_nil]
  exact tokens?_of_step hclosing

/-! ### Scanned words -/

theorem step?_of_isWordChar (h : isWordChar c = true) :
    between.step? c = some ([], inWord [c]) := by
  have hspace : isSpace c = false := by
    by_contra hspace
    simp only [isSpace, Bool.not_eq_false, Bool.or_eq_true, beq_iff_eq] at hspace
    rcases hspace with ((rfl | rfl) | rfl) | rfl <;> cases h
  have hmark : c ≠ '"' := by
    rintro rfl
    cases h
  rw [step?, start?, hspace, if_neg Bool.false_ne_true, if_neg hmark, if_pos h]

theorem tokens?_inWord : ∀ (cs word : List Char), (∀ c ∈ cs, isWordChar c = true) →
    (inWord word).tokens? (cs ++ rest) = (inWord (cs.reverse ++ word)).tokens? rest
  | [], _, _ => rfl
  | c :: cs, word, h => by
    obtain ⟨hc, hcs⟩ := List.forall_mem_cons.mp h
    have hstep : (inWord word).step? c = some ([], inWord (c :: word)) := if_pos hc
    rw [List.cons_append, tokens?_of_silent hstep, tokens?_inWord cs _ hcs, List.reverse_cons,
      List.append_assoc, List.singleton_append]

/-- What does not go on with a word. -/
def Stops (rest : List Char) : Prop :=
  ∀ c ∈ rest.head?, isWordChar c = false

theorem stops_of_punctuation {token : Token} (h : punctuation? c = some token) :
    Stops (c :: rest) := by
  intro d hd
  cases hd
  unfold punctuation? at h
  split at h
  case h_7 => cases h
  all_goals rfl

theorem tokens?_endOfWord (word : List Char) (hrest : Stops rest) :
    (inWord word).tokens? rest = (between.tokens? rest).map (.word word.reverse :: ·) := by
  cases rest with
  | nil => rfl
  | cons c rest =>
    have hstep : (inWord word).step? c =
        (start? c).map fun next => (.word word.reverse :: next.1, next.2) :=
      if_neg (by rw [hrest c rfl]; exact Bool.false_ne_true)
    rw [tokens?_cons, tokens?_cons, hstep]
    show _ = Option.map _ ((start? c).bind _)
    cases start? c with
    | none => rfl
    | some next =>
      rw [Option.map_some, Option.bind_some, Option.bind_some, Option.map_map]
      rfl

/-- **A word is scanned as one token.** -/
theorem tokens?_word (hne : cs ≠ []) (hcs : ∀ c ∈ cs, isWordChar c = true) (hrest : Stops rest) :
    between.tokens? (cs ++ rest) = (between.tokens? rest).map (.word cs :: ·) := by
  cases cs with
  | nil => exact absurd rfl hne
  | cons c cs =>
    obtain ⟨hc, hcs⟩ := List.forall_mem_cons.mp hcs
    rw [List.cons_append, tokens?_of_silent (step?_of_isWordChar hc), tokens?_inWord cs _ hcs,
      tokens?_endOfWord _ hrest, List.reverse_append, List.reverse_reverse]
    rfl

end Scan

end RuleFilter.Json

namespace RuleFilter

theorem Number.write_ne_nil (n : Number) : n.write ≠ [] := by
  cases n with
  | int n =>
    show (toString n).toList ≠ []
    rw [toList_toString, List.append_nil]
    exact List.append_ne_nil_of_right_ne_nil _ Nat.toDigits_ne_nil
  | float x =>
    intro h
    obtain ⟨c, rest, hpast, -⟩ := pastDigits_float x
    rw [h] at hpast
    cases hpast

namespace Json

/-! ### Documents -/

/-- A property of every document, if an array has it as soon as its items do, and an object as soon
as the values of its members do. -/
@[elab_as_elim]
theorem induction {motive : Json → Prop} (null : motive .null) (bool : ∀ b, motive (.bool b))
    (num : ∀ n, motive (.num n)) (str : ∀ s, motive (.str s))
    (arr : ∀ items, (∀ item ∈ items, motive item) → motive (.arr items))
    (obj : ∀ members, (∀ member ∈ members, motive member.2) → motive (.obj members)) :
    ∀ j, motive j
  | .null => null
  | .bool b => bool b
  | .num n => num n
  | .str s => str s
  | .arr items => arr items fun item _ => induction null bool num str arr obj item
  | .obj members => obj members fun (key, value) hmember =>
    have : sizeOf value < 1 + sizeOf members := by
      have hsize := List.sizeOf_lt_of_mem hmember
      rw [Prod.mk.sizeOf_spec] at hsize
      omega
    induction null bool num str arr obj value

mutual

/-- The tokens of a document. -/
def tokens : Json → List Token
  | .arr items => .beginArray :: List.intercalate [.comma] (tokensOfItems items) ++ [.endArray]
  | .obj members =>
    .beginObject :: List.intercalate [.comma] (tokensOfMembers members) ++ [.endObject]
  | .str s => [.text s]
  | value => [.word value.writeScalar]

/-- The tokens of items. -/
def tokensOfItems : List Json → List (List Token)
  | [] => []
  | item :: rest => item.tokens :: tokensOfItems rest

/-- The tokens of members. -/
def tokensOfMembers : Members → List (List Token)
  | [] => []
  | (key, value) :: rest => (.text key :: .colon :: value.tokens) :: tokensOfMembers rest

end

/-- The text of a member. -/
def compactMember (member : String × Json) : List Char :=
  quote member.1 ++ ':' :: member.2.compact

/-- The tokens of a member. -/
def memberTokens (member : String × Json) : List Token :=
  .text member.1 :: .colon :: member.2.tokens

theorem tokens_arr (items : List Json) : (arr items).tokens =
    .beginArray :: List.intercalate [.comma] (items.map tokens) ++ [.endArray] := by
  have hitems : ∀ items : List Json, tokensOfItems items = items.map tokens := by
    intro items
    induction items with
    | nil => rfl
    | cons item rest ih => rw [tokensOfItems, ih, List.map_cons]
  rw [tokens, hitems]

theorem tokens_obj (members : Members) : (obj members).tokens =
    .beginObject :: List.intercalate [.comma] (members.map memberTokens) ++ [.endObject] := by
  have hmembers : ∀ members : Members, tokensOfMembers members = members.map memberTokens := by
    intro members
    induction members with
    | nil => rfl
    | cons member rest ih => rw [tokensOfMembers, ih, List.map_cons, memberTokens]
  rw [tokens, hmembers]

theorem compact_arr (items : List Json) : (arr items).compact =
    '[' :: List.intercalate [','] (items.map compact) ++ [']'] := by
  have hitems : ∀ items : List Json, compactItems items = items.map compact := by
    intro items
    induction items with
    | nil => rfl
    | cons item rest ih => rw [compactItems, ih, List.map_cons]
  rw [compact, hitems]

theorem compact_obj (members : Members) : (obj members).compact =
    '{' :: List.intercalate [','] (members.map compactMember) ++ ['}'] := by
  have hmembers : ∀ members : Members, compactMembers members = members.map compactMember := by
    intro members
    induction members with
    | nil => rfl
    | cons member rest ih => rw [compactMembers, ih, List.map_cons, compactMember]
  rw [compact, hmembers]

/-! ### Scanned documents -/

/-- A text is scanned into tokens, whatever follows it that does not go on with a word. -/
def Scans (cs : List Char) (tokens : List Token) : Prop :=
  ∀ rest, Scan.Stops rest →
    Scan.between.tokens? (cs ++ rest) = (Scan.between.tokens? rest).map (tokens ++ ·)

theorem scans_word {cs : List Char} (hne : cs ≠ []) (hcs : ∀ c ∈ cs, isWordChar c = true) :
    Scans cs [.word cs] :=
  fun _ hrest => Scan.tokens?_word hne hcs hrest

/-- Spaces in front of a text. -/
theorem scans_behind_spaces {spaces cs : List Char} {tokens : List Token}
    (hspaces : ∀ c ∈ spaces, isSpace c = true) (h : Scans cs tokens) :
    Scans (spaces ++ cs) tokens := by
  intro rest hrest
  rw [List.append_assoc, Scan.tokens?_spaces hspaces, h rest hrest]

/-- Texts with commas and the same spaces between them. -/
theorem scans_intercalate {α : Type} {text : α → List Char} {tokens : α → List Token}
    {spaces : List Char} (hspaces : ∀ c ∈ spaces, isSpace c = true) :
    ∀ {parts : List α}, (∀ part ∈ parts, Scans (text part) (tokens part)) →
      Scans (List.intercalate (',' :: spaces) (parts.map text))
        (List.intercalate [.comma] (parts.map tokens))
  | [], _ => fun rest _ => Option.map_id'.symm
  | [part], h => by simpa using h
  | part :: other :: parts, h => by
    obtain ⟨hpart, hothers⟩ := List.forall_mem_cons.mp h
    have hcomma : punctuation? ',' = some .comma := rfl
    intro rest hrest
    have ih := scans_behind_spaces hspaces (scans_intercalate hspaces hothers) rest hrest
    rw [List.map_cons, List.map_cons] at ih ⊢
    rw [List.map_cons, List.map_cons, List.intercalate_cons_cons, List.intercalate_cons_cons,
      List.append_assoc, List.append_assoc, List.cons_append,
      hpart _ (Scan.stops_of_punctuation hcomma), Scan.tokens?_punctuation hcomma,
      ← List.append_assoc, ih, Option.map_map, Option.map_map]
    simp [Function.comp_def]

/-- Brackets around a text. -/
theorem scans_bracketed {opening closing : Char} {first last : Token}
    (hfirst : punctuation? opening = some first) (hlast : punctuation? closing = some last)
    {cs : List Char} {tokens : List Token} (h : Scans cs tokens) :
    Scans (opening :: cs ++ [closing]) (first :: tokens ++ [last]) := by
  intro rest _
  rw [List.cons_append, List.cons_append, List.append_assoc, Scan.tokens?_punctuation hfirst,
    List.singleton_append, h _ (Scan.stops_of_punctuation hlast), Scan.tokens?_punctuation hlast,
    Option.map_map, Option.map_map]
  simp [Function.comp_def]

/-- A key in front of a text. -/
theorem scans_keyed (key : String) {cs : List Char} {tokens : List Token} (h : Scans cs tokens) :
    Scans (quote key ++ ':' :: cs) (.text key :: .colon :: tokens) := by
  intro rest hrest
  have hcolon : punctuation? ':' = some .colon := rfl
  rw [List.append_assoc, Scan.tokens?_quote, List.cons_append,
    Scan.tokens?_punctuation hcolon, h rest hrest, Option.map_map, Option.map_map]
  rfl

/-- **The compact text of a document is scanned into the tokens of the document.** -/
theorem scans_compact (j : Json) : Scans j.compact j.tokens := by
  induction j using Json.induction with
  | null => exact scans_word (by simp [compact, writeScalar]) (List.all_eq_true.mp rfl)
  | bool b => cases b <;> exact scans_word (List.cons_ne_nil _ _) (List.all_eq_true.mp rfl)
  | num n => exact scans_word (Number.write_ne_nil n) (isWordChar_write n)
  | str s => exact fun rest _ => Scan.tokens?_quote s rest
  | arr items ih =>
    rw [compact_arr, tokens_arr]
    exact scans_bracketed rfl rfl (scans_intercalate (List.forall_mem_nil _) ih)
  | obj members ih =>
    rw [compact_obj, tokens_obj]
    exact scans_bracketed rfl rfl (scans_intercalate (List.forall_mem_nil _) fun member hmember =>
      scans_keyed member.1 (ih member hmember))

end Json

end RuleFilter
