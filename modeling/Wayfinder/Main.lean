import Wayfinder.CommandLine.Parse
import Wayfinder.CommandLine.Run
import Wayfinder.FileTree.Snapshot
import Wayfinder.Json.Reader

/-!
# The program

Reads the files of the workspace from the first line of standard input, as a snapshot,
carries out the command line on them, and prints what it gives.

The commands `serve` and `mcp` print nothing here: a server that owns the connection calls
`Http.respond` or `Tool.callByName` for each request.
-/

namespace Wayfinder

/-- The variables of the environment that choose settings. -/
def readEnvironment : IO CommandLine.Environment := do
  let names := CommandLine.Argument.settings.filterMap CommandLine.Argument.variableName?
  let values ← names.filterMapM fun name => do
    return (← IO.getEnv name).map fun value => (name, Text.Utf8.bytes value)
  return { entries := values }

/-- The machine whose files stand on standard input, an empty one if there are none. -/
def readHost : IO Host := do
  let line ← (← IO.getStdin).getLine
  match Json.parse line with
  | .ok json => return Host.ofTree ((FileTree.ofJson? json).getD .empty)
  | .error _ => return Host.ofTree .empty

end Wayfinder

open Wayfinder in
/-- Carries out the command line.  One that is rejected is told by the code alone. -/
def main (words : List String) : IO UInt32 := do
  let environment ← readEnvironment
  match CommandLine.Reader.wordByWord.request environment (words.map Text.Utf8.bytes) with
  | .error rejection => return UInt32.ofNat rejection.exitCode
  | .ok request =>
      match request.run (← readHost) with
      | .ok output =>
          IO.print output
          return 0
      | .error failure =>
          IO.eprintln ("Error: " ++ failure.report)
          return 1
