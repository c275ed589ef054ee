import TreeGen.Proofs.Files.Access

/-!
# Programs on a tree of files

On a tree of files, a program gives a value and the tree afterwards.  Reading gives what the tree
holds, and leaves the tree alone.
-/

namespace TreeGen.Files

variable {α β : Type}

/-- The value of a program on given files, and the files afterwards. -/
def Tree.execute (files : Tree) (program : StateM Tree α) : α × Tree :=
  StateT.run program files

theorem Tree.execute_bind
    (files : Tree) (program : StateM Tree α) (next : α → StateM Tree β) :
    files.execute (program >>= next) =
      (files.execute program).2.execute (next (files.execute program).1) :=
  rfl

theorem Tree.execute_pure (files : Tree) (value : α) :
    files.execute (pure value) = (value, files) :=
  rfl

theorem Tree.execute_readText? (files : Tree) (path : String) :
    files.execute (ReadsFiles.readText? path) = (files.text? path, files) :=
  rfl

theorem Tree.execute_fileExists (files : Tree) (path : String) :
    files.execute (ReadsFiles.fileExists path) = ((files.find? path).isSome, files) :=
  rfl

theorem Tree.execute_writeText (files : Tree) (path content : String) :
    files.execute (WritesFiles.writeText path content) = files.writeFile path (.text content) :=
  rfl

theorem Tree.execute_mapM
    {files : Tree} {program : α → StateM Tree β} {answer : α → β}
    (hprogram : ∀ value, files.execute (program value) = (answer value, files))
    (values : List α) :
    files.execute (values.mapM program) = (values.map answer, files) := by
  induction values with
  | nil => rw [List.mapM_nil, execute_pure, List.map_nil]
  | cons value values ih =>
      rw [List.mapM_cons, execute_bind, hprogram value, execute_bind, ih, execute_pure,
        List.map_cons]

end TreeGen.Files
