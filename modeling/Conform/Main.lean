import Conform.CommandLine.Command
import Std.Time.DateTime.Timestamp

/-!
# The program

Reads files and the clock, runs the command, and does what it answers. It has readers for JSON
only.
-/

namespace Conform.CommandLine

/-- The environment variable that names a preferences file. -/
def prefsVariable : String := "SIEVE_PREFS"

/-- The text of a file, if it can be read. -/
def readText (file : String) : IO (Option String) := do
  try return some (← IO.FS.readFile file)
  catch _ => return none

/-- The time. -/
def now : IO Instant := do
  let t ← Std.Time.Timestamp.now
  let nanos := t.toNanosecondsSinceUnixEpoch.val
  return ⟨nanos / 1000000000, (nanos % 1000000000).toNat⟩

/-- Does what a command answers, and gives the exit code. -/
def Effect.perform : Effect → IO UInt32
  | .print exit text => do
    IO.print text
    return exit.toUInt32
  | .write file text => do
    try
      IO.FS.writeFile file text
      return 0
    catch _ => return 1

end Conform.CommandLine

open Conform.CommandLine in
def main (args : List String) : IO UInt32 := do
  let call : Call :=
    { program := "sieve", prefsVariable, prefs := ← IO.getEnv prefsVariable, args }
  match Command.ofCall? call with
  | none =>
    IO.eprint (generalHelp call)
    return 2
  | some command =>
    let texts ← command.files.mapM fun file => return (file, ← readText file)
    let world : World := { read := fun file => (texts.lookup file).join, now := ← now }
    (command.run world).perform
