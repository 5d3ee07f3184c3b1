import AppResources.Command.Invocation

/-!
# Command line

Reads the files that an invocation looks at, runs it and prints its outcome.
-/

namespace AppResources

/-- What is at a path of the file system. -/
partial def readTree (path : String) : IO (Except FileFault FileTree) := do
  let place := (← IO.currentDir) / path
  if ← place.isDir then
    let mut entries : List (String × FileTree) := []
    for entry in ← place.readDir do
      if let .ok tree ← readTree (FileTree.join path entry.fileName) then
        entries := (entry.fileName, tree) :: entries
    return .ok (.directory entries.reverse)
  else
    try
      return .ok (.file (← IO.FS.readBinFile place))
    catch _ => return .error .missing

/-- The files that were read, by path. -/
def lookupIn (found : List (String × Except FileFault FileTree)) : FileLookup := fun path =>
  (found.lookup path).getD (.error .missing)

/-- Runs the command on a command line. -/
def runCommandLine (args : List String) : IO UInt32 := do
  match Invocation.parse args with
  | .error message =>
    IO.eprintln message
    return 2
  | .ok invocation =>
    let found ← invocation.paths.mapM fun path => do return (path, ← readTree path)
    let outcome := invocation.run (lookupIn found)
    IO.print outcome.output
    if let some message := outcome.error then
      IO.eprintln message
    return 0

end AppResources

/-- Runs the command on the command line. -/
def main (args : List String) : IO UInt32 :=
  AppResources.runCommandLine args
