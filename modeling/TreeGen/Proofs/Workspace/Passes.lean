import TreeGen.Proofs.Document
import TreeGen.Proofs.TypeTree.RoundTrip
import TreeGen.Proofs.Workspace.Reading

/-!
# Passes over a tree that was read

A workspace reads its tree and expands it within the same limit, so no pass over a tree that was
read meets a node below the limit.  Making the document only reads files.  Hence a check and a
preview always give a summary and change no file, and all that can keep a generation from giving one
is that the document cannot be stored.
-/

namespace TreeGen

open Template

namespace Workspace

open Files (Tree.execute_bind)

section

variable {workspace : Workspace} {files : Files.Tree} {tree : TreeFile} {document : Document}

/-! ## The document of a tree -/

/-- A tree that was read is no higher than the limit of the workspace. -/
theorem heightAll_le_of_tree_eq_ok
    (h : (files.execute workspace.tree).1 = .ok tree) :
    Node.heightAll tree.roots ≤ workspace.maxDepth := by
  rw [execute_tree] at h
  cases htext : files.text? workspace.input with
  | none =>
      rw [htext] at h
      cases h
  | some text =>
      rw [htext] at h
      dsimp only at h
      cases hread : TypeTree.read ⟨workspace.input, text⟩ workspace.maxDepth with
      | error error =>
          rw [hread] at h
          cases h
      | ok roots =>
          rw [hread] at h
          cases h
          exact TypeTree.heightAll_le_of_read_eq_ok hread

theorem execute_document_of_ofRoots
    (h : Document.ofRoots (workspace.expander (workspace.libraryIn files)) tree.roots =
      .ok document) :
    files.execute (workspace.document tree) = (.ok document, files) := by
  rw [Workspace.document, Tree.execute_bind, execute_library, h]
  rfl

/-- A tree that was read has a document, made from the templates that the files have now. -/
theorem exists_execute_document
    {before : Files.Tree} (h : (before.execute workspace.tree).1 = .ok tree) (files : Files.Tree) :
    ∃ document,
      Document.ofRoots (workspace.expander (workspace.libraryIn files)) tree.roots = .ok document ∧
        files.execute (workspace.document tree) = (.ok document, files) := by
  obtain ⟨document, hdocument⟩ := Document.exists_ofRoots_eq_ok
    (workspace.expander (workspace.libraryIn files)) tree.roots (heightAll_le_of_tree_eq_ok h)
  exact ⟨document, hdocument, execute_document_of_ofRoots hdocument⟩

/-! ## The passes, once there is a document -/

theorem execute_preview_of_document
    (h : files.execute (workspace.document tree) = (.ok document, files)) :
    files.execute (workspace.preview tree) =
      (.ok (generationSummary tree document (.previewed document.name document.content)),
        files) := by
  rw [preview, Tree.execute_bind, h]
  rfl

theorem execute_check_of_document
    (h : files.execute (workspace.document tree) = (.ok document, files)) (dump : Bool) :
    files.execute (workspace.check tree dump) =
      (.ok
        { input := tree.path
          rootCount := tree.roots.length
          nodeCount := tree.nodeCount
          warnings := document.notices.warnings.map checkMessage
          infos := (document.notices.filter (!·.severity.isWarning)).map checkMessage
          treeDump := if dump then some (Node.dump tree.roots) else none },
        files) := by
  rw [check, Tree.execute_bind, h]
  rfl

def generationResult (tree : TreeFile) (document : Document) (output : String) :
    Option Delivery → Except PassError GenerationSummary
  | none => .error (.write output)
  | some delivery => .ok (generationSummary tree document (.delivered output delivery))

theorem execute_generate_of_document
    (h : files.execute (workspace.document tree) = (.ok document, files)) (output : String) :
    files.execute (workspace.generate tree output) =
      (generationResult tree document output
          (files.execute (Delivery.toFile output document.content)).1,
        (files.execute (Delivery.toFile output document.content)).2) := by
  rw [generate, Tree.execute_bind, h]
  dsimp only
  rw [Tree.execute_bind]
  cases (files.execute (Delivery.toFile output document.content)).1 <;> rfl

theorem of_execute_generate_eq_error
    (h : files.execute (workspace.document tree) = (.ok document, files))
    {output : String} {error : PassError}
    (herror : (files.execute (workspace.generate tree output)).1 = .error error) :
    error = .write output ∧
      ∃ content, (files.execute (Delivery.toFile output content)).1 = none := by
  rw [execute_generate_of_document h] at herror
  cases hdelivery : (files.execute (Delivery.toFile output document.content)).1 with
  | none =>
      rw [hdelivery] at herror
      cases herror
      exact ⟨rfl, document.content, hdelivery⟩
  | some delivery =>
      rw [hdelivery] at herror
      cases herror

end

/-- The depth limit means the same to the reader and to the expander.  So no tree that was read
fails to expand: checks and previews succeed and leave the files alone, and a generation that fails
does so because the document cannot be stored. -/
theorem passes_of_tree_eq_ok :
    (∀ (source : Source) (limit : Nat) (roots : List Node),
      TypeTree.read source limit = .ok roots →
        (∀ root ∈ roots, root.depth ≤ limit) ∧
        ∀ library, ∃ document, Document.ofRoots ⟨library, limit⟩ roots = .ok document) ∧
    ∀ (workspace : Workspace) (before files : Files.Tree) (tree : TreeFile),
      (before.execute workspace.tree).1 = .ok tree →
        (∀ dump, ∃ summary,
          files.execute (workspace.check tree dump) = (.ok summary, files)) ∧
        (∃ summary, files.execute (workspace.preview tree) = (.ok summary, files)) ∧
        ∀ output error, (files.execute (workspace.generate tree output)).1 = .error error →
          error = .write output ∧
            ∃ content, (files.execute (Delivery.toFile output content)).1 = none := by
  constructor
  · intro source limit roots hread
    have hheight := TypeTree.heightAll_le_of_read_eq_ok hread
    constructor
    · exact Node.heightAll_le_iff.mp hheight
    · intro library
      exact Document.exists_ofRoots_eq_ok _ roots hheight
  · intro workspace before files tree htree
    obtain ⟨document, -, hdocument⟩ := exists_execute_document htree files
    refine ⟨?_, ⟨_, execute_preview_of_document hdocument⟩, ?_⟩
    · intro dump
      exact ⟨_, execute_check_of_document hdocument dump⟩
    · intro output error herror
      exact of_execute_generate_eq_error hdocument herror

/-! ## A tree as deep as its limit -/

def twoLevelRoots : List Node :=
  [⟨"A", "class", none, [.leaf "B" "property"]⟩]

/-- A directory with the text of the tree as its only file. -/
def twoLevelFiles : Files.Tree :=
  .ofList [(⟨.above 0, ["context.json"]⟩, .text (Node.dump twoLevelRoots))]

/-- A workspace in that directory whose trees have at most two levels. -/
def twoLevelWorkspace : Workspace :=
  ⟨⟨"tessera.toml", ⟨{ maxDepth := 2 }, []⟩⟩, "context.json", "templates"⟩

theorem read_twoLevelRoots (filename : String) :
    TypeTree.read ⟨filename, Node.dump twoLevelRoots⟩ 2 = .ok twoLevelRoots :=
  TypeTree.read_print_toJsonAll Json.blank_indented filename (by decide) (by decide)

theorem tree_twoLevelWorkspace :
    (twoLevelFiles.execute twoLevelWorkspace.tree).1 =
      .ok ⟨"context.json", Node.dump twoLevelRoots, twoLevelRoots⟩ := by
  have htext : twoLevelFiles.text? twoLevelWorkspace.input =
      some (Node.dump twoLevelRoots) := by
    with_unfolding_all rfl
  have hread : TypeTree.read ⟨twoLevelWorkspace.input, Node.dump twoLevelRoots⟩
      twoLevelWorkspace.maxDepth = .ok twoLevelRoots := read_twoLevelRoots "context.json"
  rw [execute_tree, htext]
  dsimp only
  rw [hread]
  rfl

theorem passes_of_two_levels :
    (∀ root ∈ twoLevelRoots, root.depth ≤ 2) ∧
      (∃ document, Document.ofRoots ⟨.ofTemplates [], 2⟩ twoLevelRoots = .ok document) ∧
      ∃ summary, twoLevelFiles.execute
        (twoLevelWorkspace.check ⟨"context.json", Node.dump twoLevelRoots, twoLevelRoots⟩ true) =
          (.ok summary, twoLevelFiles) := by
  obtain ⟨hread, hpasses⟩ := passes_of_tree_eq_ok
  obtain ⟨hdepth, hdocument⟩ := hread _ 2 twoLevelRoots (read_twoLevelRoots "context.json")
  obtain ⟨hcheck, -, -⟩ :=
    hpasses twoLevelWorkspace twoLevelFiles twoLevelFiles _ tree_twoLevelWorkspace
  exact ⟨hdepth, hdocument _, hcheck true⟩

end Workspace

end TreeGen
