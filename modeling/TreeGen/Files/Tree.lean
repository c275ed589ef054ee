import TreeGen.Files
import TreeGen.Path
import TreeGen.Table
import TreeGen.Text.Place

/-!
# A tree of files as a value

The files that a program sees, as a value: which directories there are and what every file holds.
Relative paths start at a working directory.  What lies around that directory is not known beyond
the fact that it is there: the directories above it hold nothing else, and the root of the file
system is empty.

A path is followed component by component.  Every component but the last must lead to a directory,
and a name may have at most 255 bytes, a whole path fewer than 4096.  Reading and writing fail for
no other reason than where a path leads: everything may be read and written, and there is always
room.
-/

namespace TreeGen.Files

/-- Where a walk starts, or has been taken by stepping up. -/
inductive Anchor where
  | root
  /-- The directory that lies a number of steps above the working directory. -/
  | above (steps : Nat)
deriving DecidableEq, Repr

structure Location where
  anchor : Anchor
  /-- The names on the way, the last one first. -/
  names : List String
deriving DecidableEq, Repr

def Location.child (location : Location) (name : String) : Location :=
  { location with names := name :: location.names }

/-- The directory above a place; the root lies above itself. -/
def Location.up : Location → Location
  | ⟨anchor, _ :: names⟩ => ⟨anchor, names⟩
  | ⟨.root, []⟩ => ⟨.root, []⟩
  | ⟨.above steps, []⟩ => ⟨.above (steps + 1), []⟩

inductive Entry where
  | directory
  | text (content : String)
  | binary (bytes : List UInt8)
deriving DecidableEq, Repr

/-- What the places hold; a place that is not listed holds nothing. -/
abbrev Tree := Table Location Entry

/-- Why a path leads nowhere. -/
inductive Obstacle where
  | notFound
  | notDirectory
  | nameTooLong
  | notNameable
  | occupied
deriving DecidableEq, Repr

namespace Tree

/-- What a place holds; where walks start there is always a directory. -/
def entry? (tree : Tree) (location : Location) : Option Entry :=
  if location.names = [] then some .directory else tree.get? location

/-- Follow names from a place.  The place reached need not hold anything. -/
def walk (tree : Tree) (location : Location) : List String → Except Obstacle Location
  | [] => .ok location
  | name :: rest =>
    match tree.entry? location with
    | none => .error .notFound
    | some .directory =>
      if name = ".." then walk tree location.up rest
      else if name.utf8ByteSize > 255 then .error .nameTooLong
      else walk tree (location.child name) rest
    | some _ => .error .notDirectory

def locate (tree : Tree) (path : String) : Except Obstacle Location :=
  if !Path.isNameable path then .error .notNameable
  else if path = "" then .error .notFound
  else if path.utf8ByteSize ≥ 4096 then .error .nameTooLong
  else
    tree.walk ⟨if Path.isAbsolute path then .root else .above 0, []⟩ (Path.components path)

def find? (tree : Tree) (path : String) : Option Entry :=
  match tree.locate path with
  | .error _ => none
  | .ok location =>
    match tree.entry? location with
    | some .directory => some .directory
    | some entry => if Path.namesDirectory path then none else some entry
    | none => none

def text? (tree : Tree) (path : String) : Option String :=
  match tree.find? path with
  | some (.text content) => some content
  | _ => none

def isDirectory (tree : Tree) (path : String) : Bool :=
  decide (tree.find? path = some .directory)

/-- Make one directory.  A single dot at the end stands for a directory that must be there. -/
def makeDirectory (tree : Tree) (path : String) : Except Obstacle Tree :=
  match tree.locate path with
  | .error obstacle => .error obstacle
  | .ok location =>
    match tree.entry? location with
    | some _ => .error .occupied
    | none =>
      if Path.endsInDot path then .error .notFound else .ok (tree.insert location .directory)

/-- Make a directory and the ones above it, unless they are there; what was made before a failure
stays. -/
def makeDirectories (tree : Tree) (path : String) : Bool × Tree :=
  if path = "" then (true, tree)
  else
    match tree.makeDirectory path with
    | .ok tree => (true, tree)
    | .error .notFound =>
      match h : Path.parent? path with
      | none => (false, tree)
      | some parent =>
        have := Path.parent?_length_lt h
        match makeDirectories tree parent with
        | (false, tree) => (false, tree)
        | (true, tree) =>
          match tree.makeDirectory path with
          | .ok tree => (true, tree)
          | .error _ => (tree.isDirectory path, tree)
    | .error _ => (tree.isDirectory path, tree)
termination_by path.toList.length

def writeFile (tree : Tree) (path : String) (entry : Entry) : Bool × Tree :=
  if Path.namesDirectory path then (false, tree)
  else
    match tree.locate path with
    | .error _ => (false, tree)
    | .ok location =>
      match tree.entry? location with
      | some .directory => (false, tree)
      | _ => (true, tree.insert location entry)

/-- Take away what a path names, with everything below it. -/
def remove (tree : Tree) (path : String) : Tree :=
  match tree.locate path with
  | .error _ => tree
  | .ok location =>
    tree.filterKeys fun other =>
      !(decide (other.anchor = location.anchor) && location.names.isSuffixOf other.names)

end Tree

instance : WritesFiles (StateM Tree) where
  fileExists path := do return ((← get).find? path).isSome
  readText? path := do return (← get).text? path
  createDirectories path := modifyGet (·.makeDirectories path)
  writeText path content := modifyGet (·.writeFile path (.text content))

end TreeGen.Files
