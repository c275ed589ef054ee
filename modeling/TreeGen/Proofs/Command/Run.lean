import TreeGen.Command.Run
import TreeGen.Proofs.Files.Disk
import TreeGen.Proofs.Workspace.Generation

/-!
# What a run leaves behind

A run that only reads leaves every place alone, however it ends.  A run that stores a document
touches nothing before the whole document has been made.  So when it fails, either nothing has
changed at all, or storing the document has failed, and then at most directories have been added.

This holds of every orderly access to files.  A document can fail to be stored for any reason, as
long as a write that is refused has touched no file.
-/

namespace TreeGen

open Files

namespace Command

variable {σ ν Place : Type} {seen : σ → ν} {entryAt : σ → Place → Option Entry}

/-! ## Running a pass -/

section

variable {options : WorkspaceOptions}

def passOutcome : Except PassError (List Line) → Outcome
  | .error error => .ofPassError error
  | .ok lines => .ofLines lines

variable [WritesFiles (StateM σ)] {pass : Workspace → TreeFile → StateM σ _}

theorem run_withTree
    {before loaded read : σ} {workspace : Workspace} {tree : TreeFile}
    (hload : StateT.run (Workspace.load options : StateM σ _) before = (.ok workspace, loaded))
    (htree : StateT.run (workspace.tree : StateM σ _) loaded = (.ok tree, read)) :
    StateT.run (withTree options pass) before =
      (passOutcome (StateT.run (pass workspace tree) read).1,
        (StateT.run (pass workspace tree) read).2) := by
  rw [withTree, run_bind, hload]
  dsimp only
  rw [run_bind, htree]
  dsimp only
  rw [run_bind]
  cases (StateT.run (pass workspace tree) read).1 <;> rfl

variable (hreads : ReadsQuietly seen)

include hreads

theorem onlyReads_withTree (hpass : ∀ workspace tree, OnlyReads seen (pass workspace tree)) :
    OnlyReads seen (withTree options pass) := by
  apply (Workspace.onlyReads_load hreads options).bind
  rintro (error | workspace)
  · exact onlyReads_pure _
  · apply (Workspace.onlyReads_tree hreads workspace).bind
    rintro (error | tree)
    · exact onlyReads_pure _
    · apply (hpass workspace tree).bind
      rintro (error | lines) <;> exact onlyReads_pure _

/-- A run changes nothing before it comes to its pass, with a workspace and a tree. -/
theorem withTree_cases
    {before after : σ} {outcome : Outcome}
    (h : StateT.run (withTree options pass) before = (outcome, after)) :
    seen after = seen before ∨
      ∃ workspace tree loaded read result,
        StateT.run (Workspace.load options : StateM σ _) before = (.ok workspace, loaded) ∧
        StateT.run (workspace.tree : StateM σ _) loaded = (.ok tree, read) ∧
        seen read = seen before ∧
        StateT.run (pass workspace tree) read = (result, after) ∧
        outcome = passOutcome result := by
  obtain ⟨result, loaded, hload, h⟩ := exists_of_run_bind h
  have hloaded := (Workspace.onlyReads_load hreads options).eq_of_run hload
  cases result with
  | error error =>
      cases h
      exact .inl hloaded
  | ok workspace =>
      obtain ⟨result, read, htree, h⟩ := exists_of_run_bind h
      have hread := ((Workspace.onlyReads_tree hreads workspace).eq_of_run htree).trans hloaded
      cases result with
      | error error =>
          cases h
          exact .inl hread
      | ok tree =>
          obtain ⟨result, last, hpass, h⟩ := exists_of_run_bind h
          refine .inr ⟨workspace, tree, loaded, read, result, hload, htree, hread, ?_⟩
          cases result with
          | error error =>
              cases h
              exact ⟨hpass, rfl⟩
          | ok lines =>
              cases h
              exact ⟨hpass, rfl⟩

end

/-! ## Running a command -/

section

variable [WritesFiles (StateM σ)]

theorem onlyReads_run
    (hreads : ReadsQuietly seen)
    {command : Command} (h : ∀ options output, command ≠ .generate options output false) :
    OnlyReads seen command.run := by
  cases command with
  | generate options output dryRun =>
      cases dryRun with
      | false => exact absurd rfl (h options output)
      | true =>
          apply onlyReads_withTree hreads
          intro workspace tree
          apply (Workspace.onlyReads_preview hreads workspace tree).bind
          intro summary
          exact onlyReads_pure _
  | check options dump =>
      apply onlyReads_withTree hreads
      intro workspace tree
      apply (Workspace.onlyReads_check hreads workspace tree dump).bind
      intro summary
      exact onlyReads_pure _
  | list options =>
      apply (Workspace.onlyReads_load hreads options).bind
      rintro (error | workspace)
      · exact onlyReads_pure _
      · apply (Workspace.onlyReads_listRegistry hreads workspace).bind
        intro summary
        exact onlyReads_pure _
  | completions shell => exact onlyReads_pure _
  | help => exact onlyReads_pure _
  | version => exact onlyReads_pure _

/-- The command makes its whole document and then fails to store it. -/
inductive FailsToStore (before : σ) : Command → Prop where
  | intro {options : WorkspaceOptions} {output : Option String}
      {workspace : Workspace} {tree : TreeFile} {document : Document} {loaded read made : σ}
      (loads : StateT.run (Workspace.load options : StateM σ _) before = (.ok workspace, loaded))
      (reads : StateT.run (workspace.tree : StateM σ _) loaded = (.ok tree, read))
      (makes : StateT.run (workspace.document tree : StateM σ _) read = (.ok document, made))
      (refused : (StateT.run (Delivery.toFile (output.getD workspace.output) document.content :
        StateM σ _) made).1 = none) :
      FailsToStore before (.generate options output false)

/-- A generation that fails has changed nothing, or could not store its document. -/
theorem failed_generation_cases
    (horderly : Orderly entryAt)
    {options : WorkspaceOptions} {output : Option String} {before after : σ} {outcome : Outcome}
    (h : StateT.run ((generate options output false).run : StateM σ Outcome) before =
      (outcome, after))
    (hcode : outcome.exitCode ≠ 0) :
    entryAt after = entryAt before ∨
      FailsToStore before (.generate options output false) ∧
        ∀ place, KeptOrMade (entryAt before place) (entryAt after place) := by
  rcases withTree_cases horderly.toReadsQuietly h with
    hsame | ⟨workspace, tree, loaded, read, result, hload, htree, hread, hpass, rfl⟩
  · exact .inl hsame
  · obtain ⟨generated, last, hgenerated, h⟩ := exists_of_run_bind hpass
    cases generated with
    | ok summary =>
        cases h
        exact absurd rfl hcode
    | error error =>
        cases h
        rcases Workspace.generate_error_cases horderly hgenerated with
          hsame | ⟨document, made, hdocument, hrefused, hkept⟩
        · exact .inl (hsame.trans hread)
        · rw [hread] at hkept
          exact .inr ⟨.intro hload htree hdocument hrefused, hkept⟩

/-- Over an orderly access, a run that fails changes no file, adds none and removes none.  It adds
directories only when storing the document is what has failed.  A run that does not store a document
changes nothing, whether it fails or not. -/
theorem run_leaves_no_trace
    (horderly : Orderly entryAt)
    (command : Command) (before after : σ) (outcome : Outcome)
    (h : StateT.run (command.run : StateM σ Outcome) before = (outcome, after)) :
    (outcome.exitCode ≠ 0 →
      (∀ place, KeptOrMade (entryAt before place) (entryAt after place)) ∧
      (¬ FailsToStore before command → ∀ place, entryAt after place = entryAt before place)) ∧
    ((∀ options output, command ≠ .generate options output false) →
      ∀ place, entryAt after place = entryAt before place) := by
  have hreads : (∀ options output, command ≠ .generate options output false) →
      entryAt after = entryAt before := by
    intro hcommand
    exact (onlyReads_run horderly.toReadsQuietly hcommand).eq_of_run h
  refine ⟨?_, fun hcommand => congrFun (hreads hcommand)⟩
  intro hcode
  have hcases : entryAt after = entryAt before ∨
      FailsToStore before command ∧
        ∀ place, KeptOrMade (entryAt before place) (entryAt after place) := by
    by_cases hcommand : ∃ options output, command = .generate options output false
    · obtain ⟨options, output, rfl⟩ := hcommand
      exact failed_generation_cases horderly h hcode
    · refine .inl (hreads ?_)
      rintro options output rfl
      exact hcommand ⟨options, output, rfl⟩
  rcases hcases with hsame | ⟨hfails, hkept⟩
  · rw [hsame]
    exact ⟨fun place => .refl _, fun _ place => rfl⟩
  · exact ⟨hkept, fun hstores => absurd hfails hstores⟩

end

/-! ## An output that cannot be replaced -/

/-- The tree and its templates, and an output from before. -/
def staleFiles : Files.Tree :=
  Workspace.gappyFiles.insert ⟨.above 0, ["Source.cs"]⟩ (.text "stale")

/-- The output may only be read. -/
def guardedDisk : Disk where
  files := staleFiles
  readOnly := [⟨.above 0, ["Source.cs"]⟩]
  free := 4096

/-- There is room for some bytes, but not for the document. -/
def fullDisk : Disk where
  files := staleFiles
  readOnly := []
  free := 16

def roomyDisk : Disk :=
  { fullDisk with files := staleFiles.insert ⟨.above 0, ["out"]⟩ .directory }

theorem run_gappyWorkspace_tree
    {disk : Disk}
    (h : disk.files.text? "./context.json" = some (Node.dump Workspace.gappyRoots)) :
    StateT.run (Workspace.gappyWorkspace.tree : StateM Disk _) disk =
      (.ok Workspace.gappyTree, disk) := by
  have htext : StateT.run (ReadsFiles.readText? Workspace.gappyWorkspace.input : StateM Disk _)
      disk = (some (Node.dump Workspace.gappyRoots), disk) :=
    congrArg (·, disk) h
  have hread : TypeTree.read ⟨Workspace.gappyWorkspace.input, Node.dump Workspace.gappyRoots⟩
      Workspace.gappyWorkspace.maxDepth = .ok Workspace.gappyRoots :=
    Workspace.read_gappyRoots "./context.json"
  rw [Workspace.tree, TreeFile.load, run_bind, htext]
  dsimp only
  rw [hread]
  rfl

theorem run_generate_of_refusal {disk : Disk} (h : disk = guardedDisk ∨ disk = fullDisk) :
    StateT.run ((generate {} none false).run : StateM Disk Outcome) disk =
      (⟨1, [], ["error: failed to write './Source.cs'"]⟩, disk) := by
  rcases h with rfl | rfl
  · rw [run, run_withTree (by with_unfolding_all rfl)
      (run_gappyWorkspace_tree (by with_unfolding_all rfl))]
    with_unfolding_all rfl
  · rw [run, run_withTree (by with_unfolding_all rfl)
      (run_gappyWorkspace_tree (by with_unfolding_all rfl))]
    with_unfolding_all rfl

theorem run_generate_fullDisk :
    StateT.run ((generate {} (some "out/Source.cs") false).run : StateM Disk Outcome) fullDisk =
      (⟨1, [], ["error: failed to write 'out/Source.cs'"]⟩, roomyDisk) := by
  rw [run, run_withTree (by with_unfolding_all rfl)
    (run_gappyWorkspace_tree (by with_unfolding_all rfl))]
  with_unfolding_all rfl

theorem run_leaves_no_trace_of_refusal :
    (∀ disk, disk = guardedDisk ∨ disk = fullDisk → ∃ outcome after,
      StateT.run ((generate {} none false).run : StateM Disk Outcome) disk = (outcome, after) ∧
      outcome.exitCode ≠ 0 ∧
      (∀ place, KeptOrMade (disk.entry? place) (after.entry? place)) ∧
      after.files.text? "Source.cs" = some "stale") ∧
    (∃ outcome after,
      StateT.run ((generate {} (some "out/Source.cs") false).run : StateM Disk Outcome) fullDisk =
        (outcome, after) ∧
      outcome.exitCode ≠ 0 ∧
      (∀ place, KeptOrMade (fullDisk.entry? place) (after.entry? place)) ∧
      after.files.find? "out" = some .directory ∧
      FailsToStore fullDisk (generate {} (some "out/Source.cs") false)) ∧
    ∀ place,
      Disk.entry? (StateT.run ((check {} true).run : StateM Disk Outcome) guardedDisk).2 place =
        guardedDisk.entry? place := by
  have hcode : (1 : Nat) ≠ 0 := by decide
  refine ⟨?_, ?_, ?_⟩
  · intro disk hdisk
    have hrun := run_generate_of_refusal hdisk
    obtain ⟨hkept, -⟩ := (run_leaves_no_trace Disk.orderly _ _ _ _ hrun).1 hcode
    refine ⟨_, disk, hrun, hcode, hkept, ?_⟩
    rcases hdisk with rfl | rfl <;> decide +kernel
  · obtain ⟨hkept, hunchanged⟩ :=
      (run_leaves_no_trace Disk.orderly _ _ _ _ run_generate_fullDisk).1 hcode
    refine ⟨_, roomyDisk, run_generate_fullDisk, hcode, hkept, by decide +kernel, ?_⟩
    by_contra hstores
    have hroom := hunchanged hstores ⟨.above 0, ["out"]⟩
    have hmade : roomyDisk.entry? ⟨.above 0, ["out"]⟩ ≠
        fullDisk.entry? ⟨.above 0, ["out"]⟩ := by
      decide +kernel
    exact hmade hroom
  · apply (run_leaves_no_trace Disk.orderly (check {} true) guardedDisk _ _ (Prod.eta _).symm).2
    intro options output hcommand
    cases hcommand

end Command

end TreeGen
