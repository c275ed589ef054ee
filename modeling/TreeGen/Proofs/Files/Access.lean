import TreeGen.Files.Tree

/-!
# What an access to files promises

A program that reads and writes files takes a state to a value and the state afterwards.  The state
holds the files, and whatever else the answers of the system depend on.  A program only reads when
all its steps do.

The access is orderly when reading changes nothing, making directories makes nothing else, and a
write that is refused has touched no file.  Why it is refused does not matter.
-/

namespace TreeGen.Files

/-! ## Programs that only read -/

section

variable {σ ν α β : Type} {seen : σ → ν}

theorem run_bind (program : StateM σ α) (next : α → StateM σ β) (before : σ) :
    StateT.run (program >>= next) before =
      StateT.run (next (StateT.run program before).1) (StateT.run program before).2 :=
  rfl

/-- A run of two programs is a run of the first and then one of the second. -/
theorem exists_of_run_bind
    {program : StateM σ α} {next : α → StateM σ β} {before after : σ} {result : β}
    (h : StateT.run (program >>= next) before = (result, after)) :
    ∃ value between, StateT.run program before = (value, between) ∧
      StateT.run (next value) between = (result, after) :=
  ⟨_, _, rfl, h⟩

/-- A program that leaves what is seen of the state as it is. -/
def OnlyReads (seen : σ → ν) (program : StateM σ α) : Prop :=
  ∀ before, seen (StateT.run program before).2 = seen before

theorem OnlyReads.eq_of_run
    {program : StateM σ α} {before after : σ} {value : α}
    (hprogram : OnlyReads seen program) (h : StateT.run program before = (value, after)) :
    seen after = seen before := by
  have hbefore := hprogram before
  rwa [h] at hbefore

theorem onlyReads_pure (value : α) : OnlyReads seen (pure value) := by
  intro before
  rfl

theorem OnlyReads.bind
    {program : StateM σ α} {next : α → StateM σ β}
    (hprogram : OnlyReads seen program)
    (hnext : ∀ value, OnlyReads seen (next value)) :
    OnlyReads seen (program >>= next) := by
  intro before
  rw [run_bind, hnext, hprogram]

theorem OnlyReads.foldlM
    {step : β → α → StateM σ β}
    (hstep : ∀ reached value, OnlyReads seen (step reached value))
    (reached : β) (values : List α) :
    OnlyReads seen (values.foldlM step reached) := by
  induction values generalizing reached with
  | nil =>
      rw [List.foldlM_nil]
      exact onlyReads_pure reached
  | cons value values ih =>
      rw [List.foldlM_cons]
      exact (hstep reached value).bind ih

end

/-! ## Places that are kept -/

/-- A place holds what it held, or a directory where it held nothing. -/
def KeptOrMade (before after : Option Entry) : Prop :=
  after = before ∨ before = none ∧ after = some .directory

theorem KeptOrMade.refl (entry : Option Entry) : KeptOrMade entry entry :=
  .inl rfl

theorem KeptOrMade.trans
    {first second third : Option Entry}
    (h : KeptOrMade first second) (h' : KeptOrMade second third) :
    KeptOrMade first third := by
  rcases h with rfl | ⟨hnone, rfl⟩
  · exact h'
  · rcases h' with h' | ⟨hnone', -⟩
    · exact .inr ⟨hnone, h'⟩
    · cases hnone'

/-! ## Orderly accesses -/

section

variable {σ ν Place : Type}

/-- Reading leaves what is seen of the state as it is. -/
structure ReadsQuietly [ReadsFiles (StateM σ)] (seen : σ → ν) : Prop where
  fileExists (path : String) : OnlyReads seen (ReadsFiles.fileExists path : StateM σ Bool)
  readText? (path : String) : OnlyReads seen (ReadsFiles.readText? path : StateM σ (Option String))

/-- Whatever the state is made of and however the system answers, what each place holds changes only
where something is made or written. -/
structure Orderly [WritesFiles (StateM σ)] (entryAt : σ → Place → Option Entry) : Prop
    extends ReadsQuietly entryAt where
  /-- Directories appear where nothing was, whether all of them could be made or not. -/
  createDirectories (path : String) (before : σ) (place : Place) :
    KeptOrMade (entryAt before place)
      (entryAt (StateT.run (WritesFiles.createDirectories path : StateM σ Bool) before).2 place)
  /-- A write that is refused has touched no file. -/
  refused {path content : String} {before after : σ}
    (h : StateT.run (WritesFiles.writeText path content : StateM σ Bool) before = (false, after)) :
    entryAt after = entryAt before

end

end TreeGen.Files
