import TreeGen.Proofs.Files.Execution
import TreeGen.Proofs.Template.Loading
import TreeGen.Workspace.Passes

/-!
# What a workspace reads

Loading a workspace, reading its tree and loading its templates only read, and so do all passes but
one that stores a document.  On a tree of files, what they give is a function of the files that are
read, and is the same on files that read alike.
-/

namespace TreeGen

open Files Template

namespace Workspace

/-! ## Passes that only read -/

section

variable {σ ν : Type} [ReadsFiles (StateM σ)] {seen : σ → ν} (hreads : ReadsQuietly seen)

include hreads

theorem onlyReads_load (options : WorkspaceOptions) : OnlyReads seen (load options) := by
  apply OnlyReads.bind
  · apply (hreads.fileExists options.config).bind
    rintro (_ | _)
    · exact onlyReads_pure _
    · apply (hreads.readText? options.config).bind
      rintro (_ | text) <;> exact onlyReads_pure _
  · rintro (error | located) <;> exact onlyReads_pure _

theorem onlyReads_tree (workspace : Workspace) : OnlyReads seen workspace.tree := by
  apply (hreads.readText? workspace.input).bind
  rintro (_ | text) <;> exact onlyReads_pure _

theorem onlyReads_library (workspace : Workspace) : OnlyReads seen workspace.library := by
  apply OnlyReads.bind
  · apply OnlyReads.foldlM
    intro texts resource
    rw [Library.askOnce]
    split
    · exact onlyReads_pure _
    · apply (hreads.readText? _).bind
      intro text
      exact onlyReads_pure _
  · intro texts
    exact onlyReads_pure _

theorem onlyReads_document (workspace : Workspace) (tree : TreeFile) :
    OnlyReads seen (workspace.document tree) := by
  apply (onlyReads_library hreads workspace).bind
  intro library
  split <;> exact onlyReads_pure _

theorem onlyReads_preview (workspace : Workspace) (tree : TreeFile) :
    OnlyReads seen (workspace.preview tree) := by
  apply (onlyReads_document hreads workspace tree).bind
  rintro (error | document) <;> exact onlyReads_pure _

theorem onlyReads_check (workspace : Workspace) (tree : TreeFile) (dump : Bool) :
    OnlyReads seen (workspace.check tree dump) := by
  apply (onlyReads_document hreads workspace tree).bind
  rintro (error | document) <;> exact onlyReads_pure _

theorem onlyReads_listRegistry (workspace : Workspace) :
    OnlyReads seen workspace.listRegistry := by
  apply (onlyReads_library hreads workspace).bind
  intro library
  exact onlyReads_pure _

end

end Workspace

/-! ## Reading a tree of files -/

theorem LocatedConfig.execute_loadOrDefault (files : Files.Tree) (path : String) :
    files.execute (loadOrDefault path) =
      (if (files.find? path).isSome then
          match files.text? path with
          | none => .error (.unreadable path)
          | some text => (Config.read text).map (LocatedConfig.mk path)
        else .ok ⟨path, .default⟩,
        files) := by
  rw [loadOrDefault, Tree.execute_bind, Tree.execute_fileExists]
  split
  · rw [load, Tree.execute_bind, Tree.execute_readText?]
    cases files.text? path <;> rfl
  · rfl

namespace Workspace

theorem execute_load (files : Files.Tree) (options : WorkspaceOptions) :
    files.execute (load options) =
      ((files.execute (LocatedConfig.loadOrDefault options.config)).1.map fun located =>
        { located := located
          input := options.input.getD located.inputPath
          templates := options.templates.getD located.templatesDirectory },
        files) := by
  have hfiles : (files.execute (LocatedConfig.loadOrDefault options.config)).2 = files := by
    rw [LocatedConfig.execute_loadOrDefault]
  rw [load, Tree.execute_bind, hfiles]
  cases (files.execute (LocatedConfig.loadOrDefault options.config)).1 <;> rfl

theorem execute_tree (files : Files.Tree) (workspace : Workspace) :
    files.execute workspace.tree =
      (match files.text? workspace.input with
        | none => .error (.unreadable workspace.input)
        | some text =>
          (TypeTree.read ⟨workspace.input, text⟩ workspace.maxDepth).map
            (TreeFile.mk workspace.input text),
        files) := by
  rw [Workspace.tree, TreeFile.load, Tree.execute_bind, Tree.execute_readText?]
  cases files.text? workspace.input <;> rfl

/-- The templates of a workspace as the files have them. -/
def libraryIn (workspace : Workspace) (files : Files.Tree) : Library where
  registry := workspace.registry
  texts := .ofList (workspace.registry.resources.map fun resource =>
    (resource, files.text? (Path.join workspace.templates resource)))

theorem execute_library (files : Files.Tree) (workspace : Workspace) :
    files.execute workspace.library = (workspace.libraryIn files, files) := by
  have hresource : ∀ resource,
      files.execute (do return (resource, ← readResource? workspace.templates resource)) =
        ((resource, files.text? (Path.join workspace.templates resource)), files) := by
    intro resource
    rfl
  rw [library, load_eq_mapM, Tree.execute_bind, Tree.execute_mapM hresource, Tree.execute_pure]
  rfl

/-! ## Files that read alike -/

/-- The paths of everything that a pass reads: the configuration, the tree and the templates. -/
def sourcePaths (options : WorkspaceOptions) (workspace : Workspace) : List String :=
  options.config :: workspace.input ::
    workspace.registry.resources.map (Path.join workspace.templates)

/-- What a pass reads is the same before and after. -/
structure ReadAlike
    (options : WorkspaceOptions) (workspace : Workspace) (before after : Files.Tree) : Prop where
  config_exists : (after.find? options.config).isSome = (before.find? options.config).isSome
  texts : ∀ path ∈ sourcePaths options workspace, after.text? path = before.text? path

section

variable {options : WorkspaceOptions} {workspace : Workspace} {before after : Files.Tree}

theorem ReadAlike.execute_load (h : ReadAlike options workspace before after) :
    after.execute (load options) = ((before.execute (load options)).1, after) := by
  have htext : after.text? options.config = before.text? options.config :=
    h.texts _ List.mem_cons_self
  rw [Workspace.execute_load, Workspace.execute_load, LocatedConfig.execute_loadOrDefault,
    LocatedConfig.execute_loadOrDefault, h.config_exists, htext]

theorem ReadAlike.execute_tree (h : ReadAlike options workspace before after) :
    after.execute workspace.tree = ((before.execute workspace.tree).1, after) := by
  have htext : after.text? workspace.input = before.text? workspace.input :=
    h.texts _ (List.mem_cons_of_mem _ List.mem_cons_self)
  rw [Workspace.execute_tree, Workspace.execute_tree, htext]

theorem ReadAlike.libraryIn_eq (h : ReadAlike options workspace before after) :
    workspace.libraryIn after = workspace.libraryIn before := by
  have htexts : ∀ resource ∈ workspace.registry.resources,
      (resource, after.text? (Path.join workspace.templates resource)) =
        (resource, before.text? (Path.join workspace.templates resource)) := by
    intro resource hresource
    rw [h.texts _ (List.mem_cons_of_mem _ (List.mem_cons_of_mem _
      (List.mem_map_of_mem hresource)))]
  rw [libraryIn, libraryIn, List.map_congr_left htexts]

end

/-! ## The registered classifications -/

def registrationsIn (workspace : Workspace) (files : Files.Tree) : List RegistrationSummary :=
  workspace.registry.entries.map fun (classification, resource) =>
    ⟨classification, resource,
      ((workspace.libraryIn files).find classification).template?.isSome⟩

theorem execute_listRegistry (files : Files.Tree) (workspace : Workspace) :
    files.execute workspace.listRegistry =
      (⟨workspace.templates, workspace.registrationsIn files⟩, files) := by
  rw [listRegistry, Tree.execute_bind, execute_library]
  rfl

end Workspace

end TreeGen
