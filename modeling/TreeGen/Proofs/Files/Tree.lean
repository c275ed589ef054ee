import TreeGen.Proofs.Files.Access
import TreeGen.Proofs.Table

/-!
# What changes in a tree of files

Making directories puts a directory at places that held nothing and leaves every other place alone.
Writing a file changes the place that its path leads to, and reading the path afterwards gives what
was written.  The path still leads to that place, because the place held no directory, so that no
path leads through it.
-/

namespace TreeGen.Files.Tree

/-! ## Places and entries -/

theorem names_ne_nil
    {tree : Tree} {location : Location} (h : tree.entry? location ≠ some .directory) :
    location.names ≠ [] := by
  intro hnames
  apply h
  unfold entry?
  exact if_pos hnames

/-- A place that gets an entry is the only one that changes.  The places where walks start hold a
directory, whatever is listed for them. -/
theorem entry?_insert
    (tree : Tree) {location : Location} (hnames : location.names ≠ []) (other : Location)
    (entry : Entry) :
    entry? (tree.insert location entry) other =
      if other = location then some entry else tree.entry? other := by
  unfold entry?
  by_cases hother : other.names = []
  · have hne : other ≠ location := by
      rintro rfl
      exact hnames hother
    rw [if_pos hother, if_neg hne, if_pos hother]
  · rw [if_neg hother, if_neg hother, Table.get?_insert]

/-- Directories that are still there lead where they led before. -/
theorem walk_eq_ok_of_directories
    {before after : Tree}
    (hkept : ∀ place, before.entry? place = some .directory → after.entry? place = some .directory)
    {location target : Location} {names : List String}
    (h : before.walk location names = .ok target) :
    after.walk location names = .ok target := by
  induction names generalizing location with
  | nil => exact h
  | cons name names ih =>
      rw [walk] at h
      cases hentry : before.entry? location with
      | none =>
          rw [hentry] at h
          cases h
      | some entry =>
          cases entry with
          | text content => simp [hentry] at h
          | binary bytes => simp [hentry] at h
          | directory =>
              simp only [hentry] at h
              rw [walk, hkept location hentry]
              dsimp only
              split at h
              · rename_i hup
                rw [if_pos hup]
                exact ih h
              · rename_i hup
                rw [if_neg hup]
                split at h
                · cases h
                · rename_i hlong
                  rw [if_neg hlong]
                  exact ih h

theorem locate_eq_ok_of_directories
    {before after : Tree}
    (hkept : ∀ place, before.entry? place = some .directory → after.entry? place = some .directory)
    {path : String} {location : Location}
    (h : before.locate path = .ok location) :
    after.locate path = .ok location := by
  rw [locate] at h ⊢
  split at h
  · cases h
  · rename_i hnameable
    rw [if_neg hnameable]
    split at h
    · cases h
    · rename_i hempty
      rw [if_neg hempty]
      split at h
      · cases h
      · rename_i hlong
        rw [if_neg hlong]
        exact walk_eq_ok_of_directories hkept h

theorem exists_locate_of_text?_eq_some
    {tree : Tree} {path content : String} (h : tree.text? path = some content) :
    ∃ location, tree.locate path = .ok location := by
  cases hlocate : tree.locate path with
  | ok location => exact ⟨location, rfl⟩
  | error obstacle => simp [text?, find?, hlocate] at h

/-! ## Places that are kept -/

/-- At a place, `after` holds what `before` did, or a directory where `before` held nothing. -/
def Keeps (before after : Tree) (location : Location) : Prop :=
  KeptOrMade (before.entry? location) (after.entry? location)

theorem keeps_insert_directory
    {tree : Tree} {location : Location} (h : tree.entry? location = none) (other : Location) :
    Keeps tree (tree.insert location .directory) other := by
  have hdirectory : tree.entry? location ≠ some .directory := by
    rw [h]
    exact (Option.some_ne_none _).symm
  have hinsert := entry?_insert tree (names_ne_nil hdirectory) other .directory
  by_cases hother : other = location
  · rw [if_pos hother] at hinsert
    exact .inr ⟨hother ▸ h, hinsert⟩
  · rw [if_neg hother] at hinsert
    exact .inl hinsert

/-! ## Making directories -/

theorem keeps_of_makeDirectory
    {tree after : Tree} {path : String}
    (h : tree.makeDirectory path = .ok after) (location : Location) :
    Keeps tree after location := by
  rw [makeDirectory] at h
  cases hlocate : tree.locate path with
  | error obstacle =>
      rw [hlocate] at h
      cases h
  | ok place =>
      rw [hlocate] at h
      dsimp only at h
      cases hentry : tree.entry? place with
      | some entry =>
          rw [hentry] at h
          cases h
      | none =>
          rw [hentry] at h
          dsimp only at h
          split at h
          · cases h
          · cases h
            exact keeps_insert_directory hentry location

/-- Making directories fills places that held nothing, whether all of them can be made or not. -/
theorem keeps_makeDirectories (tree : Tree) (path : String) (location : Location) :
    Keeps tree (tree.makeDirectories path).2 location := by
  fun_induction makeDirectories tree path with
  | case1 => exact .refl _
  | case2 _ _ made hmade => exact keeps_of_makeDirectory hmade location
  | case3 => exact .refl _
  | case4 _ _ _ parent _ _ above habove ih =>
      rw [habove] at ih
      exact ih
  | case5 _ _ _ parent _ _ above habove made hmade ih =>
      rw [habove] at ih
      exact ih.trans (keeps_of_makeDirectory hmade location)
  | case6 _ _ _ parent _ _ above habove _ _ ih =>
      rw [habove] at ih
      exact ih
  | case7 => exact .refl _

/-! ## Writing a file -/

/-- Writing fails and changes nothing, or gives an entry to the place that the path leads to, which
must not be a directory. -/
theorem writeFile_cases (tree : Tree) (path : String) (entry : Entry) :
    tree.writeFile path entry = (false, tree) ∨
      ∃ location, Path.namesDirectory path = false ∧ tree.locate path = .ok location ∧
        tree.entry? location ≠ some .directory ∧
        tree.writeFile path entry = (true, tree.insert location entry) := by
  rw [writeFile]
  by_cases hnames : Path.namesDirectory path
  · exact .inl (if_pos hnames)
  · rw [if_neg hnames]
    cases hlocate : tree.locate path with
    | error obstacle => exact .inl rfl
    | ok location =>
        dsimp only
        by_cases hdirectory : tree.entry? location = some .directory
        · rw [hdirectory]
          exact .inl rfl
        · refine .inr ⟨location, eq_false_of_ne_true hnames, rfl, hdirectory, ?_⟩
          split
          · rename_i hentry
            exact absurd hentry hdirectory
          · rfl

theorem eq_of_writeFile_eq_false
    {tree after : Tree} {path : String} {entry : Entry}
    (h : tree.writeFile path entry = (false, after)) :
    after = tree := by
  rcases writeFile_cases tree path entry with hfailed | ⟨location, -, -, -, hwritten⟩
  · rw [hfailed] at h
    cases h
    rfl
  · rw [hwritten] at h
    cases h

/-- What has been written is read back from its path, and no other place has changed. -/
theorem of_writeFile_text
    {tree after : Tree} {path content : String}
    (h : tree.writeFile path (.text content) = (true, after)) :
    after.text? path = some content ∧
      ∃ location, after.locate path = .ok location ∧
        ∀ other, other ≠ location → after.entry? other = tree.entry? other := by
  rcases writeFile_cases tree path (.text content) with
    hfailed | ⟨location, hnames, hlocate, hdirectory, hwritten⟩
  · rw [hfailed] at h
    cases h
  · rw [hwritten] at h
    cases h
    have hinsert : ∀ other, entry? (tree.insert location (.text content)) other =
        if other = location then some (.text content) else tree.entry? other := by
      intro other
      exact entry?_insert tree (names_ne_nil hdirectory) other (.text content)
    have hkept : ∀ place, tree.entry? place = some .directory →
        entry? (tree.insert location (.text content)) place = some .directory := by
      intro place hplace
      have hne : place ≠ location := by
        rintro rfl
        exact hdirectory hplace
      rw [hinsert, if_neg hne, hplace]
    have hlocated := locate_eq_ok_of_directories hkept hlocate
    have hentry := hinsert location
    rw [if_pos rfl] at hentry
    refine ⟨?_, location, hlocated, ?_⟩
    · rw [text?, find?, hlocated]
      simp [hentry, hnames]
    · intro other hother
      rw [hinsert, if_neg hother]

/-! ## The access -/

theorem orderly : Orderly entry? where
  fileExists _ _ := rfl
  readText? _ _ := rfl
  createDirectories path tree place := keeps_makeDirectories tree path place
  refused h := congrArg entry? (eq_of_writeFile_eq_false h)

end TreeGen.Files.Tree
