/-!
# Paths as they are written

Paths are kept as they are written and taken apart by their slashes only.  Two things are done with
them without looking at any file: finding the directory part, and putting a path behind a directory.
Slashes at the end, repeated slashes and single dots separate components and are none, except for a
single dot at the very start.
-/

namespace TreeGen.Path

def isAbsolute (path : String) : Bool :=
  path.toList.head? == some '/'

/-- Whether a path can name anything: the character with the code zero ends texts for those who
keep files. -/
def isNameable (path : String) : Bool :=
  !path.toList.contains '\x00'

/-- Put a path behind a directory; an absolute path stays as it is. -/
def join (base path : String) : String :=
  if isAbsolute path then path
  else if base = "" ∨ base.toList.getLast? = some '/' then base ++ path
  else base ++ "/" ++ path

/-- Split off what no component may be taken from: the slash of an absolute path, or the single dot
at the start of a relative one. -/
def splitStart : List Char → List Char × List Char
  | '/' :: rest => (['/'], rest)
  | ['.'] => (['.'], [])
  | '.' :: '/' :: rest => (['.'], '/' :: rest)
  | path => ([], path)

def trimEnd : List Char → List Char
  | '/' :: rest => trimEnd rest
  | ['.'] => []
  | '.' :: '/' :: rest => trimEnd rest
  | path => path

def dropComponent (path : List Char) : List Char :=
  (path.dropWhile (· ≠ '/')).tail

/-- The directory part of a path, as it is written; the root and the empty path have none. -/
def parentChars? (path : List Char) : Option (List Char) :=
  let (start, body) := splitStart path
  match trimEnd body.reverse with
  | [] => if start = ['.'] then some [] else none
  | c :: rest => some (start ++ (trimEnd (dropComponent (c :: rest))).reverse)

def parent? (path : String) : Option String :=
  (parentChars? path.toList).map String.ofList

/-! ## The directory part is shorter -/

theorem splitStart_append (path : List Char) :
    (splitStart path).1 ++ (splitStart path).2 = path := by
  fun_cases splitStart path <;> rfl

theorem trimEnd_length_le (path : List Char) : (trimEnd path).length ≤ path.length := by
  fun_induction trimEnd path with
  | case1 rest ih => exact Nat.le_succ_of_le ih
  | case2 => exact Nat.zero_le _
  | case3 rest ih => exact Nat.le_succ_of_le (Nat.le_succ_of_le ih)
  | case4 path => exact Nat.le_refl _

theorem dropComponent_length_lt (c : Char) (rest : List Char) :
    (dropComponent (c :: rest)).length < (c :: rest).length := by
  have := (List.dropWhile_sublist (l := c :: rest) (· ≠ '/')).length_le
  simp only [dropComponent, List.length_tail, List.length_cons] at this ⊢
  omega

theorem parentChars?_length_lt
    {path parent : List Char}
    (h : parentChars? path = some parent) :
    parent.length < path.length := by
  have happend := congrArg List.length (splitStart_append path)
  unfold parentChars? at h
  simp only at h
  split at h
  · split at h
    · rename_i hstart
      simp only [Option.some.injEq] at h
      rw [hstart] at happend
      simp only [List.length_append, List.length_cons, List.length_nil] at happend
      rw [← h, List.length_nil]
      omega
    · simp at h
  · rename_i c rest htrim
    simp only [Option.some.injEq] at h
    have htrimmed := trimEnd_length_le (splitStart path).2.reverse
    have hdropped := trimEnd_length_le (dropComponent (c :: rest))
    have hshorter := dropComponent_length_lt c rest
    rw [htrim, List.length_reverse] at htrimmed
    rw [← h, ← happend]
    simp only [List.length_append, List.length_reverse]
    omega

theorem parent?_length_lt
    {path parent : String}
    (h : parent? path = some parent) :
    parent.toList.length < path.toList.length := by
  simp only [parent?, Option.map_eq_some_iff] at h
  obtain ⟨chars, hchars, rfl⟩ := h
  simpa using parentChars?_length_lt hchars

/-! ## Components -/

def splitSlashes : List Char → List (List Char)
  | [] => [[]]
  | c :: rest =>
    if c = '/' then [] :: splitSlashes rest
    else
      match splitSlashes rest with
      | [] => [[c]]
      | component :: others => (c :: component) :: others

/-- The components that lead somewhere: all but empty ones and single dots. -/
def components (path : String) : List String :=
  ((splitSlashes path.toList).map String.ofList).filter fun component =>
    component != "" && component != "."

def endsInDot (path : String) : Bool :=
  ((splitSlashes path.toList).filter (· ≠ [])).getLast? == some ['.']

/-- Whether a path can only name a directory, because it ends in a slash or a single dot. -/
def namesDirectory (path : String) : Bool :=
  match (splitSlashes path.toList).getLast? with
  | some component => component == [] || component == ['.']
  | none => true

end TreeGen.Path
