import TreeGen.Workspace

/-!
# Commands

What the program can be told to do: generate, check or list, each for a workspace; print a script
that completes its command line in a shell; or say how it is used and which version it is.
-/

namespace TreeGen

/-- The shells with a completion script. -/
inductive Shell where
  | bash
  | elvish
  | fish
  | powershell
  | zsh
deriving DecidableEq, Repr

namespace Shell

def name : Shell → String
  | .bash => "bash"
  | .elvish => "elvish"
  | .fish => "fish"
  | .powershell => "powershell"
  | .zsh => "zsh"

def all : List Shell :=
  [.bash, .elvish, .fish, .powershell, .zsh]

def ofName? (name : String) : Option Shell :=
  all.find? fun shell => shell.name == name

end Shell

/-- What the program is told to do. -/
inductive Command where
  | generate (options : WorkspaceOptions) (output : Option String) (dryRun : Bool)
  /-- Report what would be left out, with the tree as JSON if asked for. -/
  | check (options : WorkspaceOptions) (dump : Bool)
  | list (options : WorkspaceOptions)
  | completions (shell : Shell)
  | help
  | version
deriving DecidableEq, Repr

end TreeGen
