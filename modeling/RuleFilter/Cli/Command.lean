import RuleFilter.Filter.Dialect

/-! # Command lines

The command line names a command and its options. An option with a value is written `--name value`
or `--name=value`; its value may not start with a hyphen unless it is a single one. Only the field
list may be given more than once. -/

namespace RuleFilter.Cli

/-- How a filter is printed. -/
inductive Output where
  /-- With placeholders by name and fields as they are. -/
  | named
  /-- For a prepared statement. -/
  | positional (d : Dialect)
  deriving DecidableEq

/-- The output of this name. -/
def Output.ofName? : String → Option Output
  | "named" => some .named
  | "postgres" => some (.positional .postgres)
  | "mysql" => some (.positional .mysql)
  | _ => none

/-- The options that have been given. -/
structure Options where
  payload : Option String := none
  fields : Option (List String) := none
  output : Option Output := none
  settings : Option String := none
  json : Bool := false

/-- What to compile and how to print it. -/
structure Job where
  /-- A file, or a hyphen for the standard input. -/
  payload : String
  fields : Option (List String)
  output : Output
  settings : Option String
  json : Bool

/-- A command. -/
inductive Command where
  | compile (job : Job)
  | operators (json : Bool)

namespace Options

/-- Takes the value of an option. -/
def setValue? (o : Options) (name value : String) : Option Options :=
  match name with
  | "payload" => if o.payload.isNone then some { o with payload := some value } else none
  | "settings" => if o.settings.isNone then some { o with settings := some value } else none
  | "dialect" =>
    if o.output.isNone then
      (Output.ofName? value).map fun output => { o with output := some output }
    else none
  | "fields" =>
    let names := (value.toList.splitOn ',').map String.ofList
    some { o with fields := some (o.fields.getD [] ++ names) }
  | _ => none

/-- Takes the option that asks for a document. -/
def setJson? (o : Options) : Option Options :=
  if o.json then none else some { o with json := true }

/-- The name of an option, and the value behind an equals sign. -/
def splitName? (argument : String) : Option (String × Option String) :=
  match argument.toList with
  | '-' :: '-' :: rest =>
    let name := String.ofList (rest.takeWhile (· != '='))
    match rest.dropWhile (· != '=') with
    | [] => some (name, none)
    | _ :: value => some (name, some (String.ofList value))
  | _ => none

/-- Whether an argument can be the value of the option before it. -/
def isValue (argument : String) : Bool :=
  argument = "-" || argument.toList.head? != some '-'

/-- Reads options; two hyphens alone end them. -/
def read? (o : Options) : List String → Option Options
  | [] => some o
  | "--" :: rest => if rest.isEmpty then some o else none
  | argument :: rest =>
    match splitName? argument with
    | none => none
    | some (name, some value) => (o.setValue? name value).bind fun o => o.read? rest
    | some ("json", none) => o.setJson?.bind fun o => o.read? rest
    | some (name, none) =>
      match rest with
      | [] => none
      | value :: rest =>
        if isValue value then (o.setValue? name value).bind fun o => o.read? rest else none

/-- The job of the options. A payload must be given. -/
def job? (o : Options) : Option Job :=
  o.payload.map fun payload => ⟨payload, o.fields, o.output.getD .named, o.settings, o.json⟩

/-- Whether only the form of the output was chosen. -/
def isBare (o : Options) : Bool :=
  o.payload.isNone && o.fields.isNone && o.output.isNone && o.settings.isNone

end Options

/-- Reads a command line. -/
def Command.read? : List String → Option Command
  | "translate" :: arguments =>
    ((Options.read? {} arguments).bind Options.job?).map .compile
  | "operators" :: arguments =>
    ((Options.read? {} arguments).filter Options.isBare).map fun o => .operators o.json
  | _ => none

end RuleFilter.Cli
