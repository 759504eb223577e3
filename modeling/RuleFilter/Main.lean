import RuleFilter.Cli.Run

/-! # The command line program

Gathers what a command can read, runs it, and prints the outcome. -/

namespace RuleFilter

/-- The content of a file that can be read. -/
def contentOf? (path : String) : IO (Option ByteArray) :=
  try
    let content ← IO.FS.readBinFile path
    return some content
  catch _ => return none

/-- The files that a command names. -/
def Cli.Command.files : Cli.Command → List String
  | .compile job => (if job.payload = "-" then [] else [job.payload]) ++ job.settings.toList
  | .operators _ => []

/-- Whether a command reads the standard input. -/
def Cli.Command.readsInput : Cli.Command → Bool
  | .compile job => job.payload = "-"
  | .operators _ => false

/-- What a command can read. -/
def surroundingsOf (command : Cli.Command) : IO Cli.Surroundings := do
  let files ← command.files.mapM fun path => return (path, ← contentOf? path)
  let input ← if command.readsInput then (← IO.getStdin).readBinToEnd else pure ByteArray.empty
  return { file := fun path => (files.lookup path).join, input }

end RuleFilter

/-- Exits with 0 after printing, with 1 on a failure, and with 2 on a wrong command line. -/
def main (arguments : List String) : IO UInt32 := do
  let surroundings ← match RuleFilter.Cli.Command.read? arguments with
    | some command => RuleFilter.surroundingsOf command
    | none => pure ⟨fun _ => none, ByteArray.empty⟩
  let outcome := RuleFilter.Cli.run arguments surroundings
  match outcome with
  | .printed text => IO.print text
  | .failed failure => IO.eprintln ("Error: " ++ failure.line)
  | .usage => IO.eprintln "usage: translate --payload FILE [OPTION]... | operators [--json]"
  return UInt32.ofNat outcome.exitCode
