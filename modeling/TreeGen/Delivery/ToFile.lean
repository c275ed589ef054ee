import TreeGen.Delivery
import TreeGen.Files
import TreeGen.Path

/-!
# Delivering a text to a file

The file is left alone when it holds the text already.  Otherwise the directory part of its path is
made, as far as it is not there, and the text is written.
-/

namespace TreeGen.Delivery

variable {m : Type → Type} [Monad m] [WritesFiles m]

/-- Make the directory part of a path; `false` when that is not possible. -/
def makeRoom (path : String) : m Bool :=
  match Path.parent? path with
  | some parent => WritesFiles.createDirectories parent
  | none => pure true

/-- Store a text under a path; nothing when it cannot be written. -/
def toFile (path content : String) : m (Option Delivery) := do
  if (← ReadsFiles.readText? path) = some content then
    return some .unchanged
  else if ← makeRoom path then
    if ← WritesFiles.writeText path content then
      return some .written
    else
      return none
  else
    return none

end TreeGen.Delivery
