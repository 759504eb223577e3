import RuleFilter.Query
import RuleFilter.Operator.Table
import RuleFilter.Json.Printer
import RuleFilter.Cli.Command

/-! # Reports

What the command line prints: a filter with the values of its placeholders, or the
operator table, as aligned text or as a document. -/

namespace RuleFilter.Cli

/-- Spaces behind a text up to a width. -/
def padTo (width : Nat) (text : String) : String :=
  text ++ String.ofList (List.replicate (width - text.length) ' ')

/-- Texts, each on a line of its own. -/
def lines (texts : List String) : String :=
  String.join (texts.map (· ++ "\n"))

/-! ### Filters -/

/-- The text of a filter with its values in the order of the placeholders, each with its name where
placeholders have names. -/
structure Report where
  sql : String
  values : List (Option String × Value)

namespace Report

/-- The report of a query with named placeholders. -/
def named (q : Query) : Report :=
  ⟨q.text, q.placeholders.map fun name => (some name, (q.value? name).getD .null)⟩

/-- The report of a query for a prepared statement. -/
def positional (q : Query) (d : Dialect) : Except RenderError Report :=
  (q.render d).map fun (sql, values) => ⟨sql, values.map fun value => (none, value)⟩

/-- The report of a query in an output. -/
def ofQuery (q : Query) : Output → Except RenderError Report
  | .named => .ok (named q)
  | .positional d => positional q d

/-- A value as a document, with its name where it has one. -/
def entryJson : Option String × Value → Json
  | (some name, value) => .obj [("name", .str name), ("value", value.toJson)]
  | (none, value) => .obj [("value", value.toJson)]

/-- The report as a document. -/
def toJson (r : Report) : Json :=
  .obj [("sql", .str r.sql), ("params", .arr (r.values.map entryJson))]

/-- The label of a value: its placeholder, or its position counted from one. -/
def label (position : Nat) : Option String → String
  | some name => ":" ++ name
  | none => "#" ++ toString (position + 1)

/-- A value behind its label. -/
def entryText (position : Nat) (entry : Option String × Value) : String :=
  padTo 8 (label position entry.1) ++ " " ++ entry.2.display

/-- The report as lines of text. -/
def toLines (r : Report) : List String :=
  if r.sql.isEmpty then ["(no predicates)"]
  else r.sql :: r.values.mapIdx entryText

/-- The report as it is printed. -/
def print (r : Report) (json : Bool) : String :=
  if json then lines [String.ofList (r.toJson.pretty 0)] else lines r.toLines

end Report

/-! ### Operators -/

/-- A document that is a text, or null. -/
def optionJson : Option String → Json
  | some s => .str s
  | none => .null

/-- An operator as a document. -/
def operatorJson (o : Operator) : Json :=
  .obj
    [ ("name", .str o.name),
      ("accepts_value", .bool o.usesValue),
      ("sql", .str o.comparison.label),
      ("affix",
        .obj [("prepend", optionJson o.affix.before), ("append", optionJson o.affix.after)]) ]

/-- The column that says how many values an operator takes. -/
def arityColumn : Arity → String
  | .none => "none"
  | .one => "scalar"
  | .several => "list"
  | .two => "pair"

/-- An operator as a line of text. The comparison is not aligned. -/
def operatorLine (o : Operator) : String :=
  padTo 18 o.name ++ " " ++ o.comparison.sql ++ " " ++ padTo 8 (arityColumn o.arity) ++ " " ++
    if o.affix.isEmpty then "" else o.affix.apply "…"

/-- The heading over the operators. -/
def operatorHeading : List String :=
  [ padTo 18 "Operator" ++ " " ++ padTo 12 "SQL" ++ " " ++ padTo 8 "Arity" ++ " Affix",
    String.ofList (List.replicate 48 '-') ]

/-- An operator table as it is printed. -/
def printOperators (table : OperatorTable) (json : Bool) : String :=
  if json then lines [String.ofList ((Json.arr (table.operators.map operatorJson)).pretty 0)]
  else lines (operatorHeading ++ table.operators.map operatorLine)

end RuleFilter.Cli
