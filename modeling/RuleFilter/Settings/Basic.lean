import RuleFilter.Connective
import RuleFilter.Identifier
import RuleFilter.Json.Printer

/-! # Settings

What a deployment may choose. Settings are valid if their delimiter is not empty and their
placeholder stem is a word, because the stem is written into SQL text. -/

namespace RuleFilter

/-- What a deployment has chosen. -/
structure Settings where
  /-- The connective of a group that names none. -/
  defaultCondition : Connective := .and
  /-- What separates the values in a text for an operator that takes several. -/
  listDelimiter : String := ","
  /-- Whether such values lose the blanks around them. -/
  trimListItems : Bool := true
  /-- What placeholder names start with. -/
  placeholderStem : String := "p"
  /-- Whether values are converted to the type that their rule declares. -/
  coerceTypes : Bool := true
  deriving DecidableEq

/-- The keys of a settings document. -/
inductive SettingKey where
  | defaultCondition
  | listDelimiter
  | trimListItems
  | placeholderStem
  | coerceTypes
  deriving DecidableEq

namespace SettingKey

/-- The keys in the order in which settings are written. -/
def all : List SettingKey :=
  [.defaultCondition, .listDelimiter, .trimListItems, .placeholderStem, .coerceTypes]

/-- The key as it is written. -/
def name : SettingKey → String
  | .defaultCondition => "default_condition"
  | .listDelimiter => "list_delimiter"
  | .trimListItems => "trim_list_items"
  | .placeholderStem => "param_prefix"
  | .coerceTypes => "coerce_types"

/-- The key of this name. -/
def ofName? (name : String) : Option SettingKey :=
  all.find? fun key => key.name = name

end SettingKey

/-- Why settings are not valid. -/
inductive SettingsFault where
  | emptyDelimiter
  | stemNotWord (stem : String)
  deriving DecidableEq

namespace SettingsFault

/-- The key at fault. -/
def key : SettingsFault → SettingKey
  | .emptyDelimiter => .listDelimiter
  | .stemNotWord _ => .placeholderStem

/-- What is wrong with it. -/
def reason : SettingsFault → String
  | .emptyDelimiter => "must not be empty"
  | .stemNotWord stem => "'" ++ stem ++ "' is not a valid identifier"

/-- The wording of the fault. -/
def message (fault : SettingsFault) : String :=
  "Invalid setting '" ++ fault.key.name ++ "': " ++ fault.reason

end SettingsFault

namespace Settings

/-- The first fault, the delimiter looked at before the stem. -/
def fault? (s : Settings) : Option SettingsFault :=
  if s.listDelimiter.isEmpty then some .emptyDelimiter
  else if Identifier.isWord s.placeholderStem.toList then none
  else some (.stemNotWord s.placeholderStem)

/-- The value of a key. -/
def get (s : Settings) : SettingKey → Json
  | .defaultCondition => .str s.defaultCondition.keyword
  | .listDelimiter => .str s.listDelimiter
  | .trimListItems => .bool s.trimListItems
  | .placeholderStem => .str s.placeholderStem
  | .coerceTypes => .bool s.coerceTypes

/-- The settings as a document. -/
def toJson (s : Settings) : Json :=
  .obj (SettingKey.all.map fun key => (key.name, s.get key))

/-- The settings as they are stored. -/
def text (s : Settings) : String :=
  s.toJson.text

end Settings

end RuleFilter
