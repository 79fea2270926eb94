import LinkSieve.CommandLine

/-!
# Program

The system that the program runs on, and the program.
-/

namespace LinkSieve.CommandLine

/-- What an action gives unless it ends in an error. -/
def resultOf {α : Type} (action : IO α) : IO (Option α) := do
  match ← EIO.toBaseIO action with
  | .ok result => return some result
  | .error _ => return none

/-- Whether an action ends without an error. -/
def succeeds (action : IO Unit) : IO Bool := do
  return (← resultOf action).isSome

/-- Removes a file that may be there. -/
def removeFile (path : String) : IO Files.Removal := do
  match ← EIO.toBaseIO (IO.FS.removeFile path) with
  | .ok () => return .removed
  | .error (.noFileOrDirectory ..) => return .absent
  | .error _ => return .failed

/-- The system that the program runs on. -/
def system : Run.Surroundings IO where
  home := IO.getEnv "HOME"
  readInput := resultOf do return (← (← IO.getStdin).readBinToEnd).toList
  print text := succeeds do
    let out ← IO.getStdout
    out.putStr text
    out.flush
  readFile path := resultOf do return (← IO.FS.readBinFile path).toList
  writeFile path content := succeeds (IO.FS.writeBinFile path ⟨content.toArray⟩)
  ensureDirectory path := succeeds (IO.FS.createDirAll path)
  moveFile source target := succeeds (IO.FS.rename source target)
  removeFile path := removeFile path

end LinkSieve.CommandLine

/-- The program. -/
def main (args : List String) : IO UInt32 := do
  let ending ← LinkSieve.CommandLine.execute LinkSieve.CommandLine.system args
  if let some complaint := ending.complaint? then IO.eprintln complaint
  return ending.code.toUInt32
