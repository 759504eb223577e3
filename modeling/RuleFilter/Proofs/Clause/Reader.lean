import RuleFilter.Proofs.Clause.Grammar

/-! # Reading a clause

Tokens are read one at a time (`State.step?`). What has been read of a bracket, or of the whole
clause, is kept in a frame: the filters of its finished alternatives, and the conjuncts of the
alternative being read. The frames around the innermost one are kept in a stack, and so are the
tokens of a comparison that is not finished.

Reading a part, a conjunction or a disjunction adds what it spells to the innermost frame
(`readAt_of_spells`). Conversely a state says what has been read to reach it
(`State.Consumed`), so that a filter is read from tokens just if they are a clause for it
(`ofTokens?_eq_some_iff`). -/

namespace RuleFilter

namespace Clause

/-! ### The reader -/

/-- What has been read of a bracket or of the whole clause. -/
structure Frame where
  /-- The filters of the alternatives in front of the one being read. -/
  alternatives : List (Filter String)
  /-- What has been read of the alternative being read. -/
  conjuncts : List (Filter String)

namespace Frame

/-- Nothing has been read. -/
def empty : Frame := ⟨[], []⟩

/-- Another part has been read. -/
def conjoin (frame : Frame) (fs : List (Filter String)) : Frame :=
  { frame with conjuncts := frame.conjuncts ++ fs }

/-- The alternatives with the one being read, which ends here. -/
def close? (frame : Frame) : Option (List (Filter String)) :=
  (Filter.join? .and frame.conjuncts).map fun g => frame.alternatives ++ [g]

/-- The filter of everything that has been read. -/
def filter? (frame : Frame) : Option (Filter String) :=
  frame.close?.bind (Filter.join? .or)

end Frame

/-- What has been read of a clause. -/
inductive State where
  /-- A part is due, of which some tokens of a comparison have been read. -/
  | due (frame : Frame) (outer : List Frame) (read : List Token)
  /-- A part has just been finished. -/
  | done (frame : Frame) (outer : List Frame)

namespace State

/-- The state after some tokens of a comparison, which may be all of it. -/
def comparing (frame : Frame) (outer : List Frame) (read : List Token) : State :=
  match Predicate.read? read with
  | some p => .done (frame.conjoin [.leaf p]) outer
  | none => .due frame outer read

/-- Reads a token. -/
def step? : State → Token → Option State
  | .due frame outer [], .opening => some (.due .empty (frame :: outer) [])
  | .due frame outer read, t => some (comparing frame outer (read ++ [t]))
  | .done frame (next :: outer), .closing =>
    frame.filter?.map fun f => .done (next.conjoin [f]) outer
  | .done frame outer, .word w =>
    if w = "AND" then some (.due frame outer [])
    else if w = "OR" then frame.close?.map fun gs => .due ⟨gs, []⟩ outer []
    else none
  | .done _ _, _ => none

/-- The filter of a clause that ends here. -/
def filter? : State → Option (Filter String)
  | .done frame [] => frame.filter?
  | _ => none

end State

/-- The filter that tokens are a clause for. -/
def ofTokens? (ts : List Token) : Option (Filter String) :=
  (ts.foldlM State.step? (State.due .empty [] [])).bind State.filter?

/-! ### What is spelled is read -/

/-- Behind the beginning of a comparison, its remaining tokens finish it. -/
theorem foldlM_step?_comparing (frame : Frame) (outer : List Frame) {p : Predicate String}
    (hp : p.isWellFormed) : ∀ read rest, read ++ rest = p.tokens → rest ≠ [] →
      rest.foldlM State.step? (.due frame outer read) =
        some (.done (frame.conjoin [.leaf p]) outer)
  | _, [], _, hrest => absurd rfl hrest
  | read, t :: rest, htokens, _ => by
    have hstep : (State.due frame outer read).step? t =
        some (State.comparing frame outer (read ++ [t])) := by
      cases read with
      | nil =>
        have ht : t = .word p.field := (List.cons.inj htokens).1
        rw [ht]
        rfl
      | cons _ _ => rfl
    have hsplit : read ++ [t] ++ rest = p.tokens := by simpa using htokens
    rw [List.foldlM_cons, hstep, Option.bind_eq_bind, Option.bind_some, State.comparing]
    cases hread : Predicate.read? (read ++ [t]) with
    | some q =>
      -- the tokens so far are a comparison of their own, so they are the whole of this one
      obtain ⟨hq, hqtokens⟩ := Predicate.read?_eq_some_iff.mp hread
      have hpq : q = p := Predicate.eq_of_prefix_tokens hq hp ⟨rest, by rw [hqtokens, hsplit]⟩
      have hnil : rest = [] := by
        rw [hpq] at hqtokens
        rw [← hqtokens] at hsplit
        exact List.append_right_eq_self.mp hsplit
      rw [hpq, hnil]
      rfl
    | none =>
      have hrest : rest ≠ [] := by
        rintro rfl
        rw [List.append_nil] at hsplit
        rw [Predicate.read?_eq_some_iff.mpr ⟨hp, hsplit.symm⟩] at hread
        cases hread
      exact foldlM_step?_comparing frame outer hp (read ++ [t]) rest hsplit hrest

/-- Reading the tokens of a level adds what they spell to the innermost frame. A disjunction is
read from the beginning of a frame, and its last alternative is still open behind it. -/
def ReadAt : Level → List Token → List (Filter String) → Prop
  | .part, ts, fs | .conjunction, ts, fs => ∀ frame outer,
    ts.foldlM State.step? (.due frame outer []) = some (.done (frame.conjoin fs) outer)
  | .disjunction, ts, gs => ∀ outer, ∃ frame : Frame,
    ts.foldlM State.step? (.due .empty outer []) = some (.done frame outer) ∧
      frame.close? = some gs

/-- **What is spelled is read**, at every level and behind anything that has been read. -/
theorem readAt_of_spells {level : Level} {ts : List Token} {fs : List (Filter String)}
    (h : Spells level ts fs) : ReadAt level ts fs := by
  induction h with
  | @comparison p hp =>
    intro frame outer
    exact foldlM_step?_comparing frame outer hp [] p.tokens rfl (by simp [Predicate.tokens])
  | @brackets ts gs f _ hjoined ih =>
    intro frame outer
    obtain ⟨inner, hread, hclose⟩ := ih (frame :: outer)
    have hfilter : inner.filter? = some f := by rw [Frame.filter?, hclose]; exact hjoined
    have hopening : (State.due frame outer []).step? .opening =
        some (.due .empty (frame :: outer) []) := rfl
    have hclosing : (State.done inner (frame :: outer)).step? .closing =
        some (.done (frame.conjoin [f]) outer) := by
      rw [State.step?, hfilter, Option.map_some]
    simp [hopening, hread, hclosing]
  | conjunct _ ih => exact ih
  | @and ss ts fs f _ _ ihbefore ihpart =>
    intro frame outer
    have hand : (State.done (frame.conjoin fs) outer).step? (.word "AND") =
        some (.due (frame.conjoin fs) outer []) := by
      cases outer <;> rfl
    have hconjoin : (frame.conjoin fs).conjoin [f] = frame.conjoin (fs ++ [f]) := by
      simp [Frame.conjoin]
    simp [ihbefore frame outer, hand, ihpart (frame.conjoin fs) outer, hconjoin]
  | @alternative ts fs g _ hjoined ih =>
    intro outer
    exact ⟨_, ih .empty outer, by simp [Frame.close?, Frame.conjoin, Frame.empty, hjoined]⟩
  | @or ss ts fs gs g _ _ hjoined ihbefore ihconjunction =>
    intro outer
    obtain ⟨frame, hread, hclose⟩ := ihbefore outer
    have hor : (State.done frame outer).step? (.word "OR") = some (.due ⟨gs, []⟩ outer []) := by
      cases outer <;> simp [State.step?, hclose]
    refine ⟨Frame.conjoin ⟨gs, []⟩ fs, ?_, by simp [Frame.close?, Frame.conjoin, hjoined]⟩
    simp [hread, hor, ihconjunction ⟨gs, []⟩ outer]

/-! ### What is read is spelled -/

/-- Nothing, or tokens that spell the filters of a level with its connective behind them. -/
def Leads (level : Level) (c : Connective) (ts : List Token) (fs : List (Filter String)) : Prop :=
  ts = [] ∧ fs = [] ∨ ∃ ss, ts = ss ++ [.word c.keyword] ∧ Spells level ss fs

namespace Frame

/-- The tokens that have been read of a frame in which a part is due. -/
def Before (frame : Frame) (ts : List Token) : Prop :=
  ∃ us vs, ts = us ++ vs ∧ Leads .disjunction .or us frame.alternatives ∧
    Leads .conjunction .and vs frame.conjuncts

/-- The tokens that have been read of a frame in which a part has just been finished. -/
def After (frame : Frame) (ts : List Token) : Prop :=
  ∃ us vs, ts = us ++ vs ∧ Leads .disjunction .or us frame.alternatives ∧
    Spells .conjunction vs frame.conjuncts

theorem before_empty : empty.Before [] :=
  ⟨[], [], rfl, .inl ⟨rfl, rfl⟩, .inl ⟨rfl, rfl⟩⟩

theorem Before.part {frame : Frame} {ts us : List Token} {f : Filter String}
    (h : frame.Before ts) (hpart : Spells .part us [f]) : (frame.conjoin [f]).After (ts ++ us) := by
  obtain ⟨as, cs, rfl, halternatives, ⟨rfl, hconjuncts⟩ | ⟨ss, rfl, hconjuncts⟩⟩ := h
  · refine ⟨as, us, by simp, halternatives, ?_⟩
    simpa [conjoin, hconjuncts] using Spells.conjunct hpart
  · exact ⟨as, ss ++ .word "AND" :: us, by simp [Connective.keyword], halternatives,
      hconjuncts.and hpart⟩

theorem After.and {frame : Frame} {ts : List Token} (h : frame.After ts) :
    frame.Before (ts ++ [.word "AND"]) := by
  obtain ⟨as, cs, rfl, halternatives, hconjuncts⟩ := h
  exact ⟨as, cs ++ [.word "AND"], by simp, halternatives, .inr ⟨cs, rfl, hconjuncts⟩⟩

theorem After.close {frame : Frame} {ts : List Token} {gs : List (Filter String)}
    (h : frame.After ts) (hclose : frame.close? = some gs) : Spells .disjunction ts gs := by
  obtain ⟨g, hjoined, rfl⟩ := Option.map_eq_some_iff.mp hclose
  obtain ⟨as, cs, rfl, ⟨rfl, halternatives⟩ | ⟨ss, rfl, halternatives⟩, hconjuncts⟩ := h
  · simpa [halternatives] using Spells.alternative hconjuncts hjoined
  · simpa [Connective.keyword] using halternatives.or hconjuncts hjoined

theorem After.or {frame : Frame} {ts : List Token} {gs : List (Filter String)}
    (h : frame.After ts) (hclose : frame.close? = some gs) :
    Before ⟨gs, []⟩ (ts ++ [.word "OR"]) :=
  ⟨ts ++ [.word "OR"], [], by simp, .inr ⟨ts, rfl, h.close hclose⟩, .inl ⟨rfl, rfl⟩⟩

/-- The tokens of a finished frame are a clause for its filter. -/
theorem After.isClause {frame : Frame} {ts : List Token} {f : Filter String}
    (h : frame.After ts) (hfilter : frame.filter? = some f) : IsClause ts f := by
  obtain ⟨gs, hclose, hjoined⟩ := Option.bind_eq_some_iff.mp hfilter
  exact ⟨gs, h.close hclose, hjoined⟩

end Frame

/-- The tokens that have been read of the frames around the innermost one. -/
inductive Enclosing : List Frame → List Token → Prop
  | none : Enclosing [] []
  | bracket {frame : Frame} {outer : List Frame} {us vs : List Token}
      (around : Enclosing outer us) (before : frame.Before vs) :
      Enclosing (frame :: outer) (us ++ vs ++ [.opening])

/-- The tokens that have been read to reach a state. -/
inductive State.Consumed : State → List Token → Prop
  | due {frame : Frame} {outer : List Frame} {us vs : List Token} (read : List Token)
      (around : Enclosing outer us) (before : frame.Before vs) :
      Consumed (.due frame outer read) (us ++ vs ++ read)
  | done {frame : Frame} {outer : List Frame} {us vs : List Token}
      (around : Enclosing outer us) (after : frame.After vs) :
      Consumed (.done frame outer) (us ++ vs)

namespace State

theorem consumed_comparing {frame : Frame} {outer : List Frame} {us vs : List Token}
    (around : Enclosing outer us) (before : frame.Before vs) (read : List Token) :
    (comparing frame outer read).Consumed (us ++ vs ++ read) := by
  unfold comparing
  split
  · rename_i p hread
    obtain ⟨hp, rfl⟩ := Predicate.read?_eq_some_iff.mp hread
    rw [List.append_assoc]
    exact .done around (before.part (.comparison hp))
  · exact .due read around before

/-- A step reads one token. -/
theorem Consumed.step {s s' : State} {ts : List Token} {t : Token} (h : s.Consumed ts)
    (hstep : s.step? t = some s') : s'.Consumed (ts ++ [t]) := by
  unfold step? at hstep
  split at hstep
  · -- an opening bracket where a part is due
    obtain ⟨_, around, before⟩ := h
    cases hstep
    simpa using Consumed.due [] (.bracket around before) Frame.before_empty
  · -- any other token where a part is due
    obtain ⟨_, around, before⟩ := h
    cases hstep
    simpa using consumed_comparing around before _
  · -- a closing bracket behind a part
    rename_i frame next outer
    obtain ⟨f, hfilter, rfl⟩ := Option.map_eq_some_iff.mp hstep
    obtain ⟨⟩ | ⟨⟨⟩ | ⟨around, before⟩, after⟩ := h
    obtain ⟨gs, hspells, hjoined⟩ := after.isClause hfilter
    simpa using Consumed.done around (before.part (.brackets hspells hjoined))
  · -- a connective behind a part
    obtain ⟨⟩ | ⟨around, after⟩ := h
    split_ifs at hstep with hand hor
    · cases hstep
      subst hand
      simpa using Consumed.due [] around after.and
    · obtain ⟨gs, hclose, rfl⟩ := Option.map_eq_some_iff.mp hstep
      subst hor
      simpa using Consumed.due [] around (after.or hclose)
  · cases hstep

theorem Consumed.foldlM {ts us : List Token} : ∀ {s s' : State}, s.Consumed us →
    ts.foldlM step? s = some s' → s'.Consumed (us ++ ts) := by
  induction ts generalizing us with
  | nil =>
    intro s s' h hread
    cases hread
    simpa using h
  | cons t rest ih =>
    intro s s' h hread
    obtain ⟨next, hstep, hrest⟩ := Option.bind_eq_some_iff.mp hread
    simpa using ih (h.step hstep) hrest

end State

/-- **A filter is read from tokens just if they are a clause for it.** -/
theorem ofTokens?_eq_some_iff {ts : List Token} {f : Filter String} :
    ofTokens? ts = some f ↔ IsClause ts f := by
  constructor
  · intro h
    obtain ⟨s, hread, hfilter⟩ := Option.bind_eq_some_iff.mp h
    have hconsumed : s.Consumed ts :=
      State.Consumed.foldlM (.due [] .none Frame.before_empty) hread
    unfold State.filter? at hfilter
    split at hfilter
    · obtain ⟨⟩ | ⟨around, after⟩ := hconsumed
      cases around
      exact after.isClause hfilter
    · cases hfilter
  · rintro ⟨gs, hspells, hjoined⟩
    obtain ⟨frame, hread, hclose⟩ := readAt_of_spells hspells []
    rw [ofTokens?, hread]
    show frame.filter? = some f
    rw [Frame.filter?, hclose]
    exact hjoined

end Clause

/-! ### Texts -/

namespace Filter

open Clause

/-- Reads the text of a clause. -/
def read? (text : String) : Option (Filter String) :=
  ofTokens? (scan text)

theorem read?_eq_some_iff {text : String} {f : Filter String} :
    read? text = some f ↔ IsClause (scan text) f :=
  ofTokens?_eq_some_iff

/-- A well-formed filter is read from its text. -/
theorem read?_text {f : Filter String} (hf : f.isWellFormed) : read? f.text = some f := by
  rw [read?_eq_some_iff, scan_text hf]
  exact isClause_tokens f hf

/-- **The text of a filter is unambiguous.** The reader finds in a text just the filter for which
its tokens are a clause, and they are the text without its spaces. What it finds is well formed, and
a well-formed filter is found in its own text, so no other has that text. -/
theorem text_unambiguous :
    (∀ text, (scan text).flatMap Token.text = text.toList.filter (· != ' ')) ∧
      (∀ text f, read? text = some f ↔ IsClause (scan text) f) ∧
      (∀ text f, read? text = some f → f.isWellFormed) ∧
      (∀ f : Filter String, f.isWellFormed → read? f.text = some f) ∧
      ∀ f g : Filter String, f.isWellFormed → g.isWellFormed → f.text = g.text → f = g := by
  refine ⟨flatMap_text_scan, fun _ _ => read?_eq_some_iff, fun text f hread => ?_,
    fun _ => read?_text, fun f g hf hg htext => ?_⟩
  · exact (read?_eq_some_iff.mp hread).isWellFormed
  · have hread : some f = some g := by rw [← read?_text hf, htext, read?_text hg]
    exact Option.some.inj hread

/-- The `AND` of a range belongs to it, and fields may be spelled like keywords. -/
example : read? "AND BETWEEN :a AND :b AND (x IS NULL OR OR < :c) OR NOT != ''" =
    some (.group .or
      [.group .and [.leaf ⟨"AND", .between, .range "a" "b"⟩,
        .group .or [.leaf ⟨"x", .isNull, .none⟩, .leaf ⟨"OR", .less, .single "c"⟩]],
      .leaf ⟨"NOT", .notEqual, .blank⟩]) := by
  rfl

end Filter

end RuleFilter
