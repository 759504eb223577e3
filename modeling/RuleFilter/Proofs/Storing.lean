import RuleFilter.Settings.Reader
import RuleFilter.Proofs.Delivery
import RuleFilter.Proofs.Document.Reader

/-! # Stored settings

A document with some keys of settings, each once and in any order, is loaded as the settings with
all other keys at their defaults (`ofJson?_document`), because each member replaces the value of its
own key and no other (`setMember?_get`). The text of the document is read back as the document
whatever the delimiter is. Settings are valid in two values only, both of which are valid by
default, so what is left out makes no settings invalid (`fault?_overlaid`). -/

namespace RuleFilter

namespace SettingKey

theorem ofName?_name (key : SettingKey) : ofName? key.name = some key := by
  cases key <;> rfl

theorem name_injective {key other : SettingKey} (h : key.name = other.name) : key = other := by
  have hkey := ofName?_name key
  rw [h, ofName?_name] at hkey
  exact (Option.some.inj hkey).symm

end SettingKey

theorem Connective.ofSetting?_keyword (c : Connective) : ofSetting? (.str c.keyword) = some c := by
  cases c <;> rfl

namespace Settings

/-! ### Some keys of settings -/

/-- The values of some keys taken over from other settings. -/
def overlaid (base s : Settings) (keys : List SettingKey) : Settings where
  defaultCondition :=
    if .defaultCondition ∈ keys then s.defaultCondition else base.defaultCondition
  listDelimiter := if .listDelimiter ∈ keys then s.listDelimiter else base.listDelimiter
  trimListItems := if .trimListItems ∈ keys then s.trimListItems else base.trimListItems
  placeholderStem := if .placeholderStem ∈ keys then s.placeholderStem else base.placeholderStem
  coerceTypes := if .coerceTypes ∈ keys then s.coerceTypes else base.coerceTypes

/-- The document with some keys of settings, in the order of the list. -/
def document (s : Settings) (keys : List SettingKey) : Json :=
  .obj (keys.map fun key => (key.name, s.get key))

theorem document_all (s : Settings) : s.document SettingKey.all = s.toJson := rfl

theorem overlaid_nil (base s : Settings) : base.overlaid s [] = base := by
  simp [overlaid]

theorem overlaid_all (base s : Settings) : base.overlaid s SettingKey.all = s := by
  simp [overlaid, SettingKey.all]

theorem overlaid_cons (base s : Settings) (key : SettingKey) (keys : List SettingKey) :
    (base.overlaid s [key]).overlaid s keys = base.overlaid s (key :: keys) := by
  have hvalue : ∀ {α : Type} (a b : α) (k : SettingKey),
      (if k ∈ keys then a else if k ∈ [key] then a else b) = if k ∈ key :: keys then a else b := by
    intro α a b k
    by_cases hrest : k ∈ keys
    · rw [if_pos hrest, if_pos (List.mem_cons_of_mem _ hrest)]
    · rw [if_neg hrest]
      simp [hrest]
  unfold overlaid
  simp only [hvalue]

/-! ### Loading -/

/-- **A member replaces the value of its own key.** -/
theorem setMember?_get (base s : Settings) (key : SettingKey) :
    base.setMember? (key.name, s.get key) = some (base.overlaid s [key]) := by
  unfold setMember?
  rw [SettingKey.ofName?_name, Option.bind_some]
  cases key <;> simp [set?, get, overlaid, Connective.ofSetting?_keyword]

theorem foldlM_setMember? (s : Settings) : ∀ (keys : List SettingKey) (base : Settings),
    (keys.map fun key => (key.name, s.get key)).foldlM setMember? base =
      some (base.overlaid s keys)
  | [], base => by
    rw [overlaid_nil]
    rfl
  | key :: keys, base => by
    have ih := foldlM_setMember? s keys (base.overlaid s [key])
    rw [overlaid_cons] at ih
    rw [List.map_cons, List.foldlM_cons, setMember?_get]
    exact ih

/-- **A document with some keys is loaded as these, the others at their defaults.** -/
theorem ofJson?_document (s : Settings) {keys : List SettingKey} (h : keys.Nodup) :
    ofJson? (s.document keys) = some (({} : Settings).overlaid s keys) := by
  have hnodup : ((keys.map fun key => (key.name, s.get key)).map Prod.fst).Nodup := by
    rw [List.map_map]
    exact h.map fun _ _ => SettingKey.name_injective
  unfold document ofJson?
  simp only
  rw [if_pos hnodup, foldlM_setMember?]

theorem readable_document (s : Settings) (keys : List SettingKey) :
    (s.document keys).Readable Json.Assembly.maxDepth := by
  refine @Json.Readable.obj 126 _ fun member hmember => ?_
  obtain ⟨key, -, rfl⟩ := List.mem_map.mp hmember
  cases key with
  | defaultCondition | listDelimiter | placeholderStem => exact .str _
  | trimListItems | coerceTypes => exact .bool _

/-! ### Validity -/

theorem fault?_eq_none_iff {s : Settings} : s.fault? = none ↔
    s.listDelimiter.isEmpty = false ∧ Identifier.isWord s.placeholderStem.toList = true := by
  unfold fault?
  split_ifs <;> simp_all

/-- Settings stay valid when values are taken over from valid ones. -/
theorem fault?_overlaid {base s : Settings} (hbase : base.fault? = none) (hs : s.fault? = none)
    (keys : List SettingKey) : (base.overlaid s keys).fault? = none := by
  obtain ⟨hdelimiter, hstem⟩ := fault?_eq_none_iff.mp hbase
  obtain ⟨hdelimiter', hstem'⟩ := fault?_eq_none_iff.mp hs
  refine fault?_eq_none_iff.mpr ⟨?_, ?_⟩
  · unfold overlaid
    simp only
    split_ifs
    · exact hdelimiter'
    · exact hdelimiter
  · unfold overlaid
    simp only
    split_ifs
    · exact hstem'
    · exact hstem

theorem ofUncheckedText_eq_ok_iff {text : String} {s : Settings} :
    ofUncheckedText text = .ok s ↔ (Json.ofText? text).bind ofJson? = some s := by
  unfold ofUncheckedText
  cases (Json.ofText? text).bind ofJson? <;> simp

theorem ofText_eq_ok_iff {text : String} {s : Settings} : ofText text = .ok s ↔
    (Json.ofText? text).bind ofJson? = some s ∧ s.fault? = none := by
  unfold ofText
  rw [except_bind_eq_ok]
  constructor
  · rintro ⟨s', hread, hvalid⟩
    split at hvalid
    · rename_i hfault
      cases hvalid
      exact ⟨ofUncheckedText_eq_ok_iff.mp hread, hfault⟩
    · cases hvalid
  · rintro ⟨hread, hvalid⟩
    refine ⟨s, ofUncheckedText_eq_ok_iff.mpr hread, ?_⟩
    rw [hvalid]

/-- **Some keys of valid settings are loaded from the text of their document.** -/
theorem ofText_document {s : Settings} (hs : s.fault? = none) {keys : List SettingKey}
    (hkeys : keys.Nodup) :
    ofText (s.document keys).text = .ok (({} : Settings).overlaid s keys) := by
  refine ofText_eq_ok_iff.mpr ⟨?_, fault?_overlaid rfl hs keys⟩
  rw [Json.ofText?_text (s.readable_document keys), Option.bind_some, s.ofJson?_document hkeys]

end Settings

/-! ### Names under valid settings -/

theorem Identifier.isWord_name {stem : String} (h : isWord stem.toList = true) (number : Nat) :
    isWord (NameSupply.name stem number).toList = true := by
  have hdigits : ∀ c ∈ (toString number).toList, isWordPart c = true := by
    intro c hc
    rw [Nat.toString_eq_repr, Nat.toList_repr] at hc
    simp [isWordPart, Char.isAlphanum, isDigit_toDigits c hc]
  unfold NameSupply.name
  rw [String.toList_append]
  cases hstem : stem.toList with
  | nil =>
    rw [hstem] at h
    cases h
  | cons c rest =>
    rw [hstem] at h
    simp only [isWord, Bool.and_eq_true, List.all_eq_true, List.cons_append] at h ⊢
    refine ⟨h.1, fun d hd => ?_⟩
    rcases List.mem_append.mp hd with hd | hd
    · exact h.2 d hd
    · exact hdigits d hd

/-- The names that a compilation binds are words, if its stem is one. -/
theorem Compiler.isWord_of_calls {compiler : Compiler}
    (hstem : Identifier.isWord compiler.settings.placeholderStem.toList = true)
    {taken : List String} {node : RuleNode} {called : List Call}
    (h : compiler.calls taken node = .ok called) :
    ∀ name ∈ Call.names called, Identifier.isWord name.toList = true := by
  cases node with
  | leaf members =>
    cases h
    exact fun name hname => by cases hname
  | group condition rules =>
    obtain ⟨c, parts, -, -, rfl⟩ := compiler.calls_group_eq_ok h
    obtain ⟨numbers, -, hnames, -⟩ := compiler.bindingsOf_numbered taken parts
    rw [Call.names_delivery, hnames]
    exact List.forall_mem_map.mpr fun number _ => Identifier.isWord_name hstem number

/-- **Settings survive being stored and loaded.** Valid settings are loaded from their own text, and
from the text of any of their keys in any order with the other values at their defaults. Conversely
all settings that are loaded are valid, so every placeholder name that is drawn under them is a
word, and so is every name that a compilation under them binds. -/
theorem Settings.ofText_stored (s : Settings) :
    (s.fault? = none → ofText s.text = .ok s ∧
      ∀ keys : List SettingKey, keys.Nodup →
        ofText (s.document keys).text = .ok (({} : Settings).overlaid s keys)) ∧
    ∀ text, ofText text = .ok s → s.fault? = none ∧
      (∀ taken next,
        Identifier.isWord (NameSupply.draw taken ⟨s.placeholderStem, next⟩).1.toList = true) ∧
      ∀ compiler : Compiler, compiler.settings = s → ∀ taken payload recorder,
        (compiler.compileJson payload (Recorder.withTaken taken)).result = .ok recorder →
          ∀ name ∈ Call.names recorder.calls, Identifier.isWord name.toList = true := by
  refine ⟨fun hs => ⟨?all, fun keys => ofText_document hs⟩, fun text hloaded => ?loaded⟩
  case all =>
    have hkeys : SettingKey.all.Nodup := by decide
    have hall := ofText_document hs hkeys
    rwa [document_all, overlaid_all] at hall
  case loaded =>
    have hvalid := (ofText_eq_ok_iff.mp hloaded).2
    have hstem := (fault?_eq_none_iff.mp hvalid).2
    refine ⟨hvalid, fun taken next => Identifier.isWord_name hstem _, ?_⟩
    rintro compiler rfl taken payload recorder hcompiled
    unfold Compiler.compileJson at hcompiled
    rw [Compiler.compileNode_result] at hcompiled
    obtain ⟨called, hcalled, rfl⟩ := except_map_eq_ok.mp hcompiled
    rw [Recorder.receiveAll_eq]
    exact Compiler.isWord_of_calls hstem hcalled

/-- Settings with a delimiter of which every character is escaped. -/
def escapedDelimiter : Settings :=
  { defaultCondition := .or, listDelimiter := "\"\\\x01\n", placeholderStem := "_x" }

/-- Two of its keys leave the connective at its default. -/
theorem Settings.ofText_stored_escapedDelimiter :
    escapedDelimiter.fault? = none ∧ ofText escapedDelimiter.text = .ok escapedDelimiter ∧
      ofText (escapedDelimiter.document [.placeholderStem, .listDelimiter]).text =
        .ok { listDelimiter := "\"\\\x01\n", placeholderStem := "_x" } ∧
      Identifier.isWord (NameSupply.draw ["_x7"] ⟨"_x", 7⟩).1.toList = true := by
  obtain ⟨hstored, hloaded⟩ := ofText_stored escapedDelimiter
  obtain ⟨hall, hkeys⟩ := hstored rfl
  have hnodup : [SettingKey.placeholderStem, .listDelimiter].Nodup := by decide
  exact ⟨rfl, hall, hkeys _ hnodup, (hloaded _ hall).2.1 ["_x7"] 7⟩

end RuleFilter
