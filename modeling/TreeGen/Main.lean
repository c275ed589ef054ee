import TreeGen.Command.Run

/-!
# The program

The files are those of the disk.  Everything is decided by the commands; here it is only read,
written and printed.
-/

namespace TreeGen

/-- Do something with a path, or give `failed` when the path can name nothing or the system
refuses. -/
def attempt {α : Type} (path : String) (failed : α) (action : IO α) : IO α :=
  if Path.isNameable path then
    try action catch _ => return failed
  else
    return failed

/-- Access to the files of the disk.  What cannot be read counts as having no text, and what cannot
be made or written is reported as such. -/
instance : WritesFiles IO where
  fileExists path := attempt path false do
    let _ ← IO.FS.realPath path
    return true
  readText? path := attempt path none do
    return some (← IO.FS.readFile path)
  createDirectories path := attempt path false do
    if path != "" then IO.FS.createDirAll path
    return true
  writeText path content := attempt path false do
    IO.FS.writeFile path content
    return true

end TreeGen

def main (arguments : List String) : IO UInt32 := do
  let outcome ← TreeGen.Command.runArguments arguments
  (← IO.getStderr).putStr (TreeGen.Outcome.joined outcome.notices)
  (← IO.getStdout).putStr (TreeGen.Outcome.joined outcome.output)
  return outcome.exitCode.toUInt32
