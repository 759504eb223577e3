import RuleFilter.Calendar.Time
import RuleFilter.Json.Basic
import RuleFilter.Binary64.Layout
import RuleFilter.Text.Quoted

/-! # Values

A value is what a placeholder of a filter stands for. Its plain text is what a reader of a report
sees; its SQL text is a literal; its document form carries the name of its kind. -/

namespace RuleFilter

/-- A value bound to a placeholder. -/
inductive Value where
  | int (n : Int64)
  | double (x : Binary64)
  | text (s : String)
  | boolean (b : Bool)
  | date (d : Date)
  | time (t : Time)
  | timestamp (t : Timestamp)
  | null
  deriving DecidableEq

namespace Value

/-- The value of a document that is neither array nor object. Integers beyond the signed 64-bit
range become doubles. -/
def ofScalar? : Json → Option Value
  | .null => some .null
  | .bool b => some (.boolean b)
  | .num n =>
    match n.toInt64? with
    | some i => some (.int i)
    | none => some (.double n.toBinary64)
  | .str s => some (.text s)
  | .arr _ | .obj _ => none

/-- Whether this is the null value. -/
def isNull : Value → Bool
  | .null => true
  | _ => false

/-- The plain text of a value other than null. Seconds are written without their fraction. -/
def plainText? : Value → Option String
  | .int n => some (toString n.toInt)
  | .double x => some (String.ofList (Binary64.plain.write x))
  | .text s => some s
  | .boolean b => some (if b then "true" else "false")
  | .date d => some (String.ofList d.text)
  | .time t => some (String.ofList t.clockText)
  | .timestamp t => some (String.ofList t.clockText)
  | .null => none

/-- The value as it is shown beside a filter: texts in single quotes, null as a keyword, anything
else as its plain text. -/
def display : Value → String
  | .text s => String.ofList (Text.quoted '\'' s.toList)
  | value => value.plainText?.getD "NULL"

/-- The document form: the kind of the value over the value itself, or the bare kind for null.
Seconds are written with their fraction. -/
def toJson : Value → Json
  | .int n => .obj [("Int", .num (.int n.toInt))]
  | .double x => .obj [("Float", .num (.float x))]
  | .text s => .obj [("String", .str s)]
  | .boolean b => .obj [("Boolean", .bool b)]
  | .date d => .obj [("Date", .str (String.ofList d.text))]
  | .time t => .obj [("Time", .str (String.ofList t.fullText))]
  | .timestamp t => .obj [("Timestamp", .str (String.ofList t.fullText))]
  | .null => .str "Null"

end Value

end RuleFilter
