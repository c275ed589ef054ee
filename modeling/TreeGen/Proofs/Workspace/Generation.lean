import TreeGen.Proofs.Delivery
import TreeGen.Proofs.Workspace.Agreement

/-!
# Generating is storing the preview

A generation makes the same document as a preview and stores it under the output path.  So a
generation that succeeds leaves the previewed text there, and nothing else has changed but for
directories on the way to it.  Unless the output is one of the files that are read, generating once
more makes the same document again, finds it stored, and leaves everything as it is.  A generation
that fails before it stores anything leaves no trace.
-/

namespace TreeGen.Workspace

open Files Template
open Files.Tree (Keeps)

/-! ## Generations that fail -/

/-- A generation that fails has changed nothing, or has made its document and could not store it. -/
theorem generate_error_cases
    {σ Place : Type} [WritesFiles (StateM σ)] {entryAt : σ → Place → Option Entry}
    (horderly : Orderly entryAt)
    {workspace : Workspace} {tree : TreeFile} {output : String} {error : PassError}
    {before after : σ}
    (h : StateT.run (workspace.generate tree output : StateM σ _) before = (.error error, after)) :
    entryAt after = entryAt before ∨
      ∃ document made,
        StateT.run (workspace.document tree : StateM σ _) before = (.ok document, made) ∧
        (StateT.run (Delivery.toFile output document.content : StateM σ _) made).1 = none ∧
        ∀ place, KeptOrMade (entryAt before place) (entryAt after place) := by
  obtain ⟨result, made, hdocument, h⟩ := exists_of_run_bind h
  have hmade : entryAt made = entryAt before :=
    (onlyReads_document horderly.toReadsQuietly workspace tree).eq_of_run hdocument
  cases result with
  | error error =>
      cases h
      exact .inl hmade
  | ok document =>
      obtain ⟨stored, last, hstored, h⟩ := exists_of_run_bind h
      cases stored with
      | some delivery => cases h
      | none =>
          cases h
          have hkept := Delivery.keptOrMade_of_toFile_eq_none horderly hstored
          rw [hmade] at hkept
          exact .inr ⟨document, made, hdocument, by rw [hstored], hkept⟩

/-! ## Generations that succeed -/

variable {workspace : Workspace} {files : Files.Tree} {tree : TreeFile} {document : Document}

theorem exists_delivery_of_generate
    (h : files.execute (workspace.document tree) = (.ok document, files))
    {output : String} {summary : GenerationSummary} {after : Files.Tree}
    (hgenerate : files.execute (workspace.generate tree output) = (.ok summary, after)) :
    ∃ delivery, summary = generationSummary tree document (.delivered output delivery) ∧
      Delivery.Stores files output document.content (some delivery) after := by
  have hstores := Delivery.stores_toFile files output document.content
  rw [execute_generate_of_document h, Prod.mk.injEq] at hgenerate
  obtain ⟨hresult, rfl⟩ := hgenerate
  cases hstored : (files.execute (Delivery.toFile output document.content)).1 with
  | none =>
      rw [hstored] at hresult
      cases hresult
  | some delivery =>
      rw [hstored] at hresult hstores
      exact ⟨delivery, (Except.ok.inj hresult).symm, hstores⟩

/-- A generation that succeeds has stored the previewed document: the output path leads to its text,
and no other place has changed, unless it has become a directory where there was nothing.  It says
that nothing has changed exactly when the text was there already, and then nothing has.  While the
configuration, the tree and the templates still read the same, the next generation says so too. -/
theorem generate_stores_preview
    (options : WorkspaceOptions) (workspace : Workspace) (tree : TreeFile)
    (files after : Files.Tree) (output : String) (summary : GenerationSummary)
    (hload : (files.execute (load options)).1 = .ok workspace)
    (htree : (files.execute workspace.tree).1 = .ok tree)
    (hgenerate : files.execute (workspace.generate tree output) = (.ok summary, after)) :
    ∃ name content delivery,
      files.execute (workspace.preview tree) =
        (.ok { summary with fate := .previewed name content }, files) ∧
      summary.fate = .delivered output delivery ∧
      after.text? output = some content ∧
      (∃ location, after.locate output = .ok location ∧
        ∀ other, other ≠ location → Keeps files after other) ∧
      (delivery = .unchanged ↔ files.text? output = some content) ∧
      (delivery = .unchanged → after = files) ∧
      (ReadAlike options workspace files after →
        after.execute (load options) = (.ok workspace, after) ∧
        after.execute workspace.tree = (.ok tree, after) ∧
        after.execute (workspace.generate tree output) =
          (.ok { summary with fate := .delivered output .unchanged }, after)) := by
  obtain ⟨document, hdocument, hexecute⟩ := exists_execute_document htree files
  obtain ⟨delivery, rfl, hstores⟩ := exists_delivery_of_generate hexecute hgenerate
  refine ⟨document.name, document.content, delivery, execute_preview_of_document hexecute, rfl, ?_⟩
  have hstored := hstores.text?_eq
  refine ⟨hstored, hstores.exists_locate, hstores.unchanged_iff, ?_, ?_⟩
  · rintro rfl
    exact hstores.eq_of_unchanged
  · intro halike
    have hagain : after.execute (workspace.document tree) = (.ok document, after) := by
      apply execute_document_of_ofRoots
      rw [halike.libraryIn_eq, hdocument]
    refine ⟨?_, ?_, ?_⟩
    · rw [halike.execute_load, hload]
    · rw [halike.execute_tree, htree]
    · rw [execute_generate_of_document hagain, Delivery.execute_toFile_of_text? hstored]
      rfl

/-! ## A document in a new directory -/

theorem load_gappyWorkspace :
    gappyFiles.execute (load {}) = (.ok gappyWorkspace, gappyFiles) := by
  with_unfolding_all rfl

def gappyContent : String :=
  "using System;namespace SourceGenerator\x7bclass Person \x7b  \x7d\x7d"

/-- What is there after the document has been stored in a new directory. -/
def deliveredFiles : Files.Tree :=
  (gappyFiles.insert ⟨.above 0, ["out"]⟩ .directory).insert ⟨.above 0, ["Source.cs", "out"]⟩
    (.text gappyContent)

theorem readAlike_deliveredFiles : ReadAlike {} gappyWorkspace gappyFiles deliveredFiles where
  config_exists := by with_unfolding_all rfl
  texts := by
    refine List.forall_mem_cons.mpr ⟨?_, List.forall_mem_cons.mpr ⟨?_, ?_⟩⟩
    · with_unfolding_all rfl
    · with_unfolding_all rfl
    · decide +kernel

theorem generate_stores_preview_of_gappyWorkspace :
    ∃ (summary : GenerationSummary) (name : String),
      gappyFiles.execute (gappyWorkspace.generate gappyTree "out/Source.cs") =
        (.ok summary, deliveredFiles) ∧
      summary.fate = .delivered "out/Source.cs" .written ∧
      gappyFiles.execute (gappyWorkspace.preview gappyTree) =
        (.ok { summary with fate := .previewed name gappyContent }, gappyFiles) ∧
      deliveredFiles.text? "out/Source.cs" = some gappyContent ∧
      deliveredFiles.execute (gappyWorkspace.generate gappyTree "out/Source.cs") =
        (.ok { summary with fate := .delivered "out/Source.cs" .unchanged }, deliveredFiles) := by
  obtain ⟨summary, hgenerate⟩ : ∃ summary,
      gappyFiles.execute (gappyWorkspace.generate gappyTree "out/Source.cs") =
        (.ok summary, deliveredFiles) := ⟨_, by with_unfolding_all rfl⟩
  obtain ⟨name, content, delivery, hpreview, hfate, hstored, -, hunchanged, -, hrepeat⟩ :=
    generate_stores_preview {} gappyWorkspace gappyTree gappyFiles deliveredFiles "out/Source.cs"
      summary (by rw [load_gappyWorkspace]) (by rw [tree_gappyWorkspace]) hgenerate
  obtain rfl : gappyContent = content := Option.some.inj hstored
  have habsent : gappyFiles.text? "out/Source.cs" = none := by with_unfolding_all rfl
  obtain rfl : delivery = .written := by
    cases delivery with
    | written => rfl
    | unchanged =>
        have hheld := hunchanged.mp rfl
        rw [habsent] at hheld
        cases hheld
  obtain ⟨-, -, hagain⟩ := hrepeat readAlike_deliveredFiles
  exact ⟨summary, name, hgenerate, hfate, hpreview, hstored, hagain⟩

end TreeGen.Workspace
