import RuleFilter.Cli.Failure
import RuleFilter.Cli.Report
import RuleFilter.Compilation

/-! # Running a command

A run is a function of the command line and of what can be read: the payload first, then the
settings, then the payload is compiled under the settings. Nothing is printed on a failure. -/

namespace RuleFilter.Cli

/-- What a command can read. -/
structure Surroundings where
  /-- The content of a file; none if it cannot be read. -/
  file : String → Option ByteArray
  /-- The standard input. -/
  input : ByteArray

/-- How a run ends. -/
inductive Outcome where
  | printed (text : String)
  | failed (failure : Failure)
  | usage

/-- The exit code of a run. -/
def Outcome.exitCode : Outcome → Nat
  | .printed _ => 0
  | .failed _ => 1
  | .usage => 2

namespace Surroundings

/-- The text of a file. -/
def readFile (s : Surroundings) (path : String) : Except Failure String :=
  match (s.file path).bind String.fromUTF8? with
  | some text => .ok text
  | none => .error .unreadable

/-- The text of a payload; a hyphen stands for the standard input. -/
def readPayload (s : Surroundings) (path : String) : Except Failure String :=
  if path = "-" then
    match String.fromUTF8? s.input with
    | some text => .ok text
    | none => .error .unreadable
  else s.readFile path

/-- The settings in a file, or the default without one. -/
def readSettings (s : Surroundings) : Option String → Except Failure Settings
  | none => .ok {}
  | some path => do
    let text ← s.readFile path
    (Settings.ofText text).mapError .settings

end Surroundings

/-- What a job prints. -/
def Job.run (job : Job) (s : Surroundings) : Except Failure String := do
  let payload ← s.readPayload job.payload
  let settings ← s.readSettings job.settings
  let compiler : Compiler := ⟨.standard, settings, job.fields.map FieldList.ofList⟩
  let query ← (compiler.compile payload Query.empty).result.mapError .compile
  let report ← (Report.ofQuery query job.output).mapError .render
  return report.print job.json

/-- What a command prints. -/
def Command.run (s : Surroundings) : Command → Except Failure String
  | .compile job => job.run s
  | .operators json => .ok (printOperators .standard json)

/-- Runs a command line. -/
def run (arguments : List String) (s : Surroundings) : Outcome :=
  match Command.read? arguments with
  | none => .usage
  | some command =>
    match command.run s with
    | .ok text => .printed text
    | .error failure => .failed failure

end RuleFilter.Cli
