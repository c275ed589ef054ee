import TreeGen.Proofs.Files.Tree

/-!
# A disk that refuses writes

On a disk a write can fail although its path leads to a file: the file may only be read, or there is
no room for the text.  Such a write is refused before the file is touched, so the access is orderly.
-/

namespace TreeGen.Files

/-- A tree of files, and what limits the writes to it. -/
structure Disk where
  files : Tree
  /-- The places that may only be read. -/
  readOnly : List Location
  free : Nat

def Entry.size : Entry → Nat
  | .directory => 0
  | .text content => content.utf8ByteSize
  | .binary bytes => bytes.length

namespace Disk

def entry? (disk : Disk) (location : Location) : Option Entry :=
  disk.files.entry? location

/-- The bytes that a new text may take at a place, in place of what is there. -/
def roomAt (disk : Disk) (location : Location) : Nat :=
  disk.free + ((disk.entry? location).map Entry.size).getD 0

def createDirectories (disk : Disk) (path : String) : Bool × Disk :=
  let (made, files) := disk.files.makeDirectories path
  (made, { disk with files := files })

/-- Replace the text of a file, or make the file, unless the disk refuses. -/
def writeText (disk : Disk) (path content : String) : Bool × Disk :=
  match disk.files.locate path with
  | .error _ => (false, disk)
  | .ok location =>
    if location ∈ disk.readOnly then (false, disk)
    else if disk.roomAt location < content.utf8ByteSize then (false, disk)
    else
      match disk.files.writeFile path (.text content) with
      | (false, _) => (false, disk)
      | (true, files) =>
        (true, { disk with files := files, free := disk.roomAt location - content.utf8ByteSize })

end Disk

instance : WritesFiles (StateM Disk) where
  fileExists path := do return ((← get).files.find? path).isSome
  readText? path := do return (← get).files.text? path
  createDirectories path := modifyGet (·.createDirectories path)
  writeText path content := modifyGet (·.writeText path content)

namespace Disk

theorem eq_of_writeText_eq_false
    {disk after : Disk} {path content : String}
    (h : disk.writeText path content = (false, after)) :
    after = disk := by
  rw [writeText] at h
  split at h
  · exact (Prod.mk.inj h).2.symm
  · split at h
    · exact (Prod.mk.inj h).2.symm
    · split at h
      · exact (Prod.mk.inj h).2.symm
      · split at h
        · exact (Prod.mk.inj h).2.symm
        · cases (Prod.mk.inj h).1

theorem orderly : Orderly entry? where
  fileExists _ _ := rfl
  readText? _ _ := rfl
  createDirectories path disk place := Tree.keeps_makeDirectories disk.files path place
  refused h := congrArg entry? (eq_of_writeText_eq_false h)

end Disk

end TreeGen.Files
