import Highlighter.CommandLine

/-!
# The program

Reads the files that the arguments ask for and prints what the command answers.
-/

set_option autoImplicit false

open Highlighter.CommandLine

/-- The contents of a file, if it can be read. -/
def contentsOf (path : String) : IO (Option ByteArray) := do
  try
    return some (← IO.FS.readBinFile path)
  catch _ =>
    return none

def main (arguments : List String) : IO UInt32 := do
  let request := Request.ofArguments arguments
  let contents ← request.paths.mapM fun path => do return (path, ← contentsOf path)
  let input ← match request with
    | .highlight ⟨_, _, none⟩ => (← IO.getStdin).readBinToEnd
    | _ => pure ByteArray.empty
  let outcome := request.outcome (fun path => (contents.lookup path).join) input
  IO.print outcome.stdout
  IO.eprint outcome.stderr
  return outcome.exitCode.toUInt32
