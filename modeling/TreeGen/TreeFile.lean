import TreeGen.Files
import TreeGen.Node.Measure
import TreeGen.TypeTree.Reading

/-!
# Type tree files

A type tree that was read from a file keeps the path and the text it came from.
-/

namespace TreeGen

/-- A type tree and the file it was read from. -/
structure TreeFile where
  path : String
  text : String
  roots : List Node
deriving DecidableEq, Repr

namespace TreeFile

def load {m : Type → Type} [Monad m] [ReadsFiles m] (path : String) (limit : Nat) :
    m (Except InputError TreeFile) := do
  match ← ReadsFiles.readText? path with
  | none => return .error (.unreadable path)
  | some text => return (TypeTree.read ⟨path, text⟩ limit).map (TreeFile.mk path text)

def nodeCount (file : TreeFile) : Nat :=
  file.roots.foldl (fun count root => count + root.nodeCount) 0

end TreeFile

end TreeGen
