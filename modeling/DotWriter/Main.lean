import DotWriter.CommandLine.Run

/-!
# The program

Looks at the paths that the arguments name, runs the command and does what its outcome says.
-/

namespace DotWriter.Program

/-- What is found at a path. -/
def lookAt (path : String) : IO Entry := do
  match ← (IO.FS.realPath path).toBaseIO with
  | .error _ => return .missing
  | .ok found =>
    if ← found.isDir then return .directory
    else if ← found.pathExists then return .file (← IO.FS.readFile path)
    else return .missing

/-- Writes a file after making the directories above it. -/
def save (path : Path) (text : String) : IO Unit := do
  IO.FS.createDirAll path.parent.text
  IO.FS.writeFile path.text text

/-- Does what an outcome says. -/
def perform (outcome : Outcome) : IO UInt32 := do
  if let some (path, text) := outcome.written then save path text
  (← IO.getStdout).putStr outcome.output
  (← IO.getStderr).putStr outcome.log
  if let some fault := outcome.broken then
    (← IO.getStderr).putStrLn ("Broken off: " ++ fault.message?.getD "the input makes no sense")
  return UInt32.ofNat outcome.exit

end DotWriter.Program

/-- Runs the program. -/
def main (args : List String) : IO UInt32 := do
  let paths := ((DotWriter.Invocation.of? args).map fun i => i.command.paths).getD []
  let found ← paths.mapM fun path => return (path, ← DotWriter.Program.lookAt path)
  DotWriter.Program.perform
    (DotWriter.run (fun path => (found.lookup path).getD .missing) args)
