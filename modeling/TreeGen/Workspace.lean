import TreeGen.LocatedConfig
import TreeGen.Template.Library
import TreeGen.Template.Expander
import TreeGen.TreeFile

/-!
# Workspaces

A workspace is a configuration file together with the paths that the caller put in place of the
configured ones.  It knows where its type tree and its templates are, which classifications are
registered and how deep trees may be.
-/

namespace TreeGen

open Template

/-- What the caller says about the workspace. -/
structure WorkspaceOptions where
  config : String := Config.defaultFilename
  input : Option String := none
  templates : Option String := none
deriving DecidableEq, Repr

/-- A configuration with the paths that hold. -/
structure Workspace where
  located : LocatedConfig
  input : String
  templates : String
deriving DecidableEq, Repr

namespace Workspace

variable {m : Type → Type} [Monad m] [ReadsFiles m]

def load (options : WorkspaceOptions) : m (Except InputError Workspace) := do
  match ← LocatedConfig.loadOrDefault options.config with
  | .error error => return .error error
  | .ok located =>
    return .ok
      { located := located
        input := options.input.getD located.inputPath
        templates := options.templates.getD located.templatesDirectory }

def output (workspace : Workspace) : String :=
  workspace.located.outputPath

def maxDepth (workspace : Workspace) : Nat :=
  workspace.located.config.settings.maxDepth

/-- The built-in classifications and the registered ones. -/
def registry (workspace : Workspace) : Registry :=
  Registry.builtin.insertMany workspace.located.config.registrations

def library (workspace : Workspace) : m Library :=
  Library.load (readResource? workspace.templates) workspace.registry

def tree (workspace : Workspace) : m (Except InputError TreeFile) :=
  TreeFile.load workspace.input workspace.maxDepth

def expander (workspace : Workspace) (library : Library) : Expander :=
  ⟨library, workspace.maxDepth⟩

end Workspace

end TreeGen
