import TreeGen.Delivery.ToFile
import TreeGen.Node.Printer
import TreeGen.Summary
import TreeGen.Workspace

/-!
# What can be done with a workspace

Three passes work on a loaded workspace.  Generating makes the document of the tree and writes it or
shows it; checking makes the document and reports what it leaves out; listing shows the registered
classifications.  Only generating, and only when it is not a preview, asks for access to write.
-/

namespace TreeGen

open Template

/-- Why a pass over a tree fails. -/
inductive PassError where
  | expansion (error : ExpansionError)
  | write (path : String)
deriving DecidableEq, Repr

def PassError.message : PassError → String
  | .expansion _ => "Failed to render type tree"
  | .write path => "failed to write '" ++ path ++ "'"

namespace Workspace

section Reading

variable {m : Type → Type} [Monad m] [ReadsFiles m]

def document (workspace : Workspace) (tree : TreeFile) : m (Except PassError Document) := do
  match Document.ofRoots (workspace.expander (← workspace.library)) tree.roots with
  | .error error => return .error (.expansion error)
  | .ok document => return .ok document

def generationSummary (tree : TreeFile) (document : Document) (fate : DocumentFate) :
    GenerationSummary where
  input := tree.path
  rootCount := document.rootCount
  nodeCount := tree.nodeCount
  skippedCount := document.skippedCount
  warnings := document.notices.warnings.map Notice.locatedMessage
  fate := fate

def preview (workspace : Workspace) (tree : TreeFile) :
    m (Except PassError GenerationSummary) := do
  match ← workspace.document tree with
  | .error error => return .error error
  | .ok document =>
    return .ok (generationSummary tree document (.previewed document.name document.content))

/-- A notice as a check reports it: with its code, and with its place on a line of its own. -/
def checkMessage (notice : Notice) : String :=
  let message := notice.message ++ " [" ++ notice.topic.code ++ "]"
  match notice.location with
  | some location => message ++ "\n  --> " ++ location
  | none => message

def check (workspace : Workspace) (tree : TreeFile) (dump : Bool) :
    m (Except PassError CheckSummary) := do
  match ← workspace.document tree with
  | .error error => return .error error
  | .ok document =>
    return .ok
      { input := tree.path
        rootCount := tree.roots.length
        nodeCount := tree.nodeCount
        warnings := document.notices.warnings.map checkMessage
        infos := (document.notices.filter (!·.severity.isWarning)).map checkMessage
        treeDump := if dump then some (Node.dump tree.roots) else none }

def listRegistry (workspace : Workspace) : m RegistrySummary := do
  let library ← workspace.library
  return {
    templates := workspace.templates
    registrations := library.registry.entries.map fun (classification, resource) =>
      ⟨classification, resource, (library.find classification).template?.isSome⟩ }

end Reading

/-- Make the document of a tree and write it to a path. -/
def generate {m : Type → Type} [Monad m] [WritesFiles m]
    (workspace : Workspace) (tree : TreeFile) (output : String) :
    m (Except PassError GenerationSummary) := do
  match ← workspace.document tree with
  | .error error => return .error error
  | .ok document =>
    match ← Delivery.toFile output document.content with
    | none => return .error (.write output)
    | some delivery =>
      return .ok (generationSummary tree document (.delivered output delivery))

end Workspace

end TreeGen
