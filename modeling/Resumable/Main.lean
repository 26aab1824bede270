import Resumable.CommandLine.Execution

/-!
# The program

Reads the files that the command line names, executes it, and prints what comes of it.
-/

namespace Resumable.CommandLine

/-- The content of a file, or why it cannot be read. -/
def readFromDisk (path : String) : IO (Except String String) := do
  try
    match Text.ofUtf8 (← IO.FS.readBinFile path).data.toList with
    | .ok s => return .ok s
    | .error _ => return .error "stream did not contain valid UTF-8"
  catch
    | .noFileOrDirectory .. => return .error "No such file or directory (os error 2)"
    | .inappropriateType .. => return .error "Is a directory (os error 21)"
    | .permissionDenied .. => return .error "Permission denied (os error 13)"
    | e => return .error (toString e)

/-- The most instructions that a run may take. -/
def maxSteps : Nat := 1_000_000_000_000_000

end Resumable.CommandLine

open Resumable CommandLine in
/-- The entry point. -/
def main (args : List String) : IO UInt32 := do
  let paths := ((command? args).map Command.paths).getD []
  let contents ← paths.mapM fun path => return (path, ← readFromDisk path)
  let read := fun path => (contents.lookup path).getD (.error "not read")
  match execute read args maxSteps with
  | none => return 1
  | some outcome =>
    IO.print outcome.output
    IO.eprint outcome.messages
    return UInt32.ofNat outcome.status
