import RuleFilter.CompileError
import RuleFilter.Rule.Basic
import RuleFilter.Settings.Basic
import RuleFilter.Calendar.Reader
import RuleFilter.Binary64.Reader
import RuleFilter.Text.Pieces

/-! # Coercion

The value of a rule is brought into the form that its operator takes. A text may stand for several
values, split at the delimiter of the settings; each value may be given as itself or as its text. -/

namespace RuleFilter

/-! ### Single values -/

/-- Reads `true` or `1`, `false` or `0`, in any letter case. -/
def readBoolean? (cs : List Char) : Option Bool :=
  let word := Text.lowercase (String.ofList cs)
  if word = "true" ∨ word = "1" then some true
  else if word = "false" ∨ word = "0" then some false
  else none

namespace ValueType

/-- The value of a text without blanks around it, for the types that are read from text. -/
def readText? (type : ValueType) (cs : List Char) : Option Value :=
  match type with
  | .integer => ((readInt? cs).bind int64?).map .int
  | .double => (Binary64.read? cs).map .double
  | .boolean => (readBoolean? cs).map .boolean
  | .date => (Date.read? cs).map .date
  | .time => (Time.read? cs).map .time
  | .datetime => (Timestamp.read? cs).map .timestamp
  | .text | .scalar => none

/-- The value of a number, for the types that numbers may have. -/
def ofNumber? (type : ValueType) (n : Number) : Option Value :=
  match type with
  | .integer => n.toInt64?.map .int
  | .double => some (.double n.toBinary64)
  | .boolean =>
    if n = .int 1 then some (.boolean true)
    else if n = .int 0 then some (.boolean false)
    else none
  | _ => none

/-- The value of a document under a type. Null is null under every type. -/
def convert? (type : ValueType) (value : Json) : Option Value :=
  match type, value with
  | _, .null => some .null
  | .text, value | .scalar, value => Value.ofScalar? value
  | .boolean, .bool b => some (.boolean b)
  | type, .num n => type.ofNumber? n
  | type, .str s => type.readText? (Text.trim s.toList)
  | _, _ => none

end ValueType

/-- The value of a document under the type of a field. -/
def convert (field : String) (type : ValueType) (value : Json) : Except CompileError Value :=
  match type.convert? value with
  | some v => .ok v
  | none => .error (.unfitValue field (.ofType type) value)

/-! ### Several values -/

/-- The texts of the values that a text stands for; a blank text stands for none. -/
def Settings.splitList (settings : Settings) (text : String) : List String :=
  if (Text.trim text.toList).isEmpty then []
  else
    let pieces := Text.splitAt settings.listDelimiter text
    if settings.trimListItems then pieces.map Text.trimmed else pieces

/-- The values that a document stands for, where several are wanted. -/
def Settings.itemsOf? (settings : Settings) : Json → Option (List Json)
  | .arr items => some items
  | .str s => some ((settings.splitList s).map .str)
  | _ => none

/-- Whether an operator takes this many values. -/
def Arity.admits : Arity → Nat → Bool
  | .none, count => count == 0
  | .one, count => count == 1
  | .several, count => count != 0
  | .two, count => count == 2

/-- The values of documents under the type of a field, or the error of the first that has none. -/
def convertAll (field : String) (type : ValueType) :
    List Json → Except CompileError (List Value)
  | [] => .ok []
  | value :: rest => do
    let first ← convert field type value
    return first :: (← convertAll field type rest)

/-! ### Arguments -/

/-- The text to search for, where a pattern is made of the value. -/
def searchText? : Json → Option String
  | .str s => some s
  | .num n => some (String.ofList n.write)
  | .bool b => some (if b then "true" else "false")
  | _ => none

namespace Rule

/-- The type under which the value of a rule is converted. -/
def valueType (settings : Settings) (rule : Rule) : ValueType :=
  if settings.coerceTypes then ValueType.ofName rule.type else .scalar

/-- The value of a rule does not have the form that its operator takes. -/
def mismatch {α : Type} (rule : Rule) (o : Operator) (found : Shape) :
    Except CompileError α :=
  .error (.arityMismatch rule.field rule.operator o.arity found)

/-- The argument of an operator that takes several values. -/
def listArgument (settings : Settings) (o : Operator) (rule : Rule) :
    Except CompileError Argument :=
  match settings.itemsOf? rule.value with
  | none => rule.mismatch o rule.value.shape
  | some items =>
    if o.arity.admits items.length then
      (convertAll rule.field (rule.valueType settings) items).map .list
    else rule.mismatch o (.many items.length)

/-- The argument of an operator that takes one value. With an affix the value is a text to search
for, whatever its type. -/
def singleArgument (settings : Settings) (o : Operator) (rule : Rule) :
    Except CompileError Argument :=
  match rule.value with
  | .arr _ => rule.mismatch o .array
  | value =>
    if o.affix.isEmpty then
      (convert rule.field (rule.valueType settings) value).map .single
    else
      match searchText? value with
      | some text => .ok (.single (.text (o.affix.apply text)))
      | none => .error (.unfitValue rule.field .searchText value)

/-- The argument that a rule gives its operator. -/
def argument (settings : Settings) (o : Operator) (rule : Rule) :
    Except CompileError Argument :=
  if !o.usesValue then .ok (if o.isBlankCheck then .blank else .null)
  else if o.comparison.takesSeveral then rule.listArgument settings o
  else rule.singleArgument settings o

/-- The operator of a rule and the argument that the rule gives it. -/
def coerce (operators : OperatorTable) (settings : Settings) (rule : Rule) :
    Except CompileError (Operator × Argument) :=
  match operators.find? rule.operator with
  | none => .error (.unknownOperator rule.field rule.operator)
  | some o => (rule.argument settings o).map fun argument => (o, argument)

end Rule

end RuleFilter
