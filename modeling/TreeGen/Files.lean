/-!
# Access to files

A program that reads files says so in its type, by asking for this access, and so does one that
writes them.  Whether the files are those of a disk or a value in a proof is left open.
-/

namespace TreeGen

class ReadsFiles (m : Type → Type) where
  /-- Whether a path names a file or a directory. -/
  fileExists : String → m Bool
  /-- The text of a file, if it can be read and is text. -/
  readText? : String → m (Option String)

class WritesFiles (m : Type → Type) extends ReadsFiles m where
  /-- Make a directory and the ones above it, unless they are there; whether they are there now. -/
  createDirectories : String → m Bool
  /-- Replace the text of a file, making the file if need be; whether that was possible. -/
  writeText : String → String → m Bool

end TreeGen
