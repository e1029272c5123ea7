import ClusterQuery.CommandLine.Run

/-!
# The program

Reads the files that the arguments name, runs the command, and writes what it gives.
-/

namespace ClusterQuery.CommandLine

/-- What there is under the name of a file. -/
def lookAt (path : String) : IO FileAnswer := do
  try
    return .text (← IO.FS.readFile path)
  catch cause =>
    match cause with
    | .noFileOrDirectory .. => return .missing
    | _ => return .unreadable

/-- The names of files among the arguments of a request. -/
def filesOf (arguments : List String) : List String :=
  match read arguments with
  | .ok request => (request.given.value? .snapshot).toList ++ (request.given.value? .settings).toList
  | .error _ => []

end ClusterQuery.CommandLine

open ClusterQuery.CommandLine in
/-- The entry point. -/
def main (arguments : List String) : IO UInt32 := do
  let files ← (filesOf arguments).mapM fun path => return (path, ← lookAt path)
  let seed ← IO.rand 0 (Nat.pow 2 122 - 1)
  let outcome := run (fun path => (files.lookup path).getD .missing) seed arguments
  IO.print outcome.out
  IO.eprint outcome.err
  return outcome.code.toUInt32
