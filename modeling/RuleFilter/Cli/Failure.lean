import RuleFilter.Settings.Reader
import RuleFilter.CompileError
import RuleFilter.Query
import RuleFilter.Text.Visible

/-! # Failures

Why a command fails, and the line that says so. The line spells out the error as a record, with its
texts quoted and escaped. -/

namespace RuleFilter.Cli

/-- Why a command fails. -/
inductive Failure where
  /-- A file or the standard input cannot be read as text. -/
  | unreadable
  | settings (e : SettingsError)
  | compile (e : CompileError)
  | render (e : RenderError)

/-- How a character is written in a quoted text of a failure line. One without a shape of its own
is written by its number. -/
def escapeChar (c : Char) : List Char :=
  if c = '"' then ['\\', '"']
  else if c = '\\' then ['\\', '\\']
  else if c = '\n' then ['\\', 'n']
  else if c = '\r' then ['\\', 'r']
  else if c = '\t' then ['\\', 't']
  else if c = '\x00' then ['\\', '0']
  else if Text.isVisible c then [c]
  else '\\' :: 'u' :: '\x7b' :: Nat.toDigits 16 c.toNat ++ ['\x7d']

/-- A quoted text of a failure line. -/
def quote (s : String) : String :=
  String.ofList ('"' :: s.toList.flatMap escapeChar ++ ['"'])

/-- A record with named texts. -/
def record (name : String) (texts : List (String × String)) : String :=
  name ++ " \x7b " ++ String.intercalate ", " (texts.map fun (key, s) => key ++ ": " ++ quote s) ++
    " \x7d"

/-- A name applied to an argument. -/
def applied (name argument : String) : String :=
  name ++ "(" ++ argument ++ ")"

/-- The record of a settings error. -/
def settingsRecord : SettingsError → String
  | .unreadable => applied "Read" ".."
  | .malformed => applied "Parse" ".."
  | .invalid fault => record "Invalid" [("key", fault.key.name), ("message", fault.reason)]

/-- The record of an error. -/
def compileRecord : CompileError → String
  | .malformedPayload => applied "InvalidJson" ".."
  | .fieldNotListed field => record "FieldNotAllowed" [("field", field)]
  | .fieldNotPath field => record "InvalidField" [("field", field)]
  | .unknownOperator field operator =>
    record "UnknownOperator" [("field", field), ("operator", operator)]
  | .arityMismatch field operator expected found =>
    record "ValueArityMismatch"
      [ ("field", field), ("operator", operator), ("expected", expected.describe),
        ("found", found.describe) ]
  | .unfitValue field expected value =>
    record "InvalidValue"
      [("field", field), ("expected", expected.describe), ("value", value.text)]
  | .unknownCondition text => applied "InvalidCondition" (quote text)

/-- The line that reports a failure. -/
def Failure.line : Failure → String
  | .unreadable => applied "PayloadRead" ".."
  | .settings e => applied "Settings" (settingsRecord e)
  | .compile e => applied "Translate" (compileRecord e)
  | .render (.unbound name) => applied "Render" (applied "UnboundParameter" (quote name))

end RuleFilter.Cli
