import RuleFilter.Settings.Basic
import RuleFilter.Json.Reader

/-! # Reading settings

Settings are an object with some of the keys, each at most once, or an array with the values of the
first keys in their order. What is left out has its default value. -/

namespace RuleFilter

/-- Why settings could not be loaded. -/
inductive SettingsError where
  | unreadable
  | malformed
  | invalid (fault : SettingsFault)
  deriving DecidableEq

/-- A connective in settings: its keyword in capitals or small letters, alone or as the only key of
an object over null. -/
def Connective.ofSetting? : Json → Option Connective
  | .str s | .obj [(s, .null)] =>
    if s = "AND" ∨ s = "and" then some .and
    else if s = "OR" ∨ s = "or" then some .or
    else none
  | _ => none

namespace Settings

/-- The settings with the value of one key replaced. -/
def set? (s : Settings) : SettingKey → Json → Option Settings
  | .defaultCondition, value =>
    (Connective.ofSetting? value).map fun c => { s with defaultCondition := c }
  | .listDelimiter, .str d => some { s with listDelimiter := d }
  | .trimListItems, .bool b => some { s with trimListItems := b }
  | .placeholderStem, .str p => some { s with placeholderStem := p }
  | .coerceTypes, .bool b => some { s with coerceTypes := b }
  | _, _ => none

/-- The settings with one member of a document taken over. -/
def setMember? (s : Settings) (member : String × Json) : Option Settings :=
  (SettingKey.ofName? member.1).bind fun key => s.set? key member.2

/-- The settings of a document whose members are as written. -/
def ofJson? : Json → Option Settings
  | .obj members =>
    if (members.map Prod.fst).Nodup then members.foldlM setMember? {} else none
  | .arr values =>
    if values.length ≤ SettingKey.all.length then
      (SettingKey.all.zip values).foldlM (fun s (key, value) => s.set? key value) {}
    else none
  | _ => none

/-- Reads settings without looking whether they are valid. -/
def ofUncheckedText (text : String) : Except SettingsError Settings :=
  match (Json.ofText? text).bind ofJson? with
  | none => .error .malformed
  | some s => .ok s

/-- Reads valid settings. -/
def ofText (text : String) : Except SettingsError Settings := do
  let s ← ofUncheckedText text
  match s.fault? with
  | none => .ok s
  | some fault => .error (.invalid fault)

/-- Reads valid settings from the content of a file, if there is one. -/
def ofFile (content : Option ByteArray) : Except SettingsError Settings :=
  match content.bind String.fromUTF8? with
  | none => .error .unreadable
  | some text => ofText text

end Settings

end RuleFilter
