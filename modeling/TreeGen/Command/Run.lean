import TreeGen.Command.Arguments
import TreeGen.Workspace.Passes

/-!
# Running a command

A run reads and writes files and ends with an exit code and two texts: the summary, and what is said
besides.  The exit code tells a bad command line from a command that failed.

The texts about the command line and the scripts that complete it are plain ones, in words of their
own, and errors are set out line by line: nothing depends on how these texts read.
-/

namespace TreeGen

/-- How a run ended. -/
structure Outcome where
  exitCode : Nat
  output : List String
  notices : List String
deriving DecidableEq, Repr

namespace Outcome

def ofLines (lines : List Line) : Outcome where
  exitCode := 0
  output := (lines.filter (!·.isWarning)).map Line.shown
  notices := (lines.filter (·.isWarning)).map Line.shown

def ofText (text : String) : Outcome :=
  ⟨0, [text], []⟩

def ofUsageError (error : Command.UsageError) : Outcome :=
  ⟨2, [], ["error: " ++ error.message, "For more information, try '--help'."]⟩

def ofInputError (error : InputError) : Outcome where
  exitCode := 1
  output := []
  notices :=
    (match error.code? with
      | some code => ["error[" ++ code ++ "]: " ++ error.message]
      | none => ["error: " ++ error.message])
    ++ (error.label?.toList.map fun label =>
      "  at byte " ++ toString label.span.offset ++ ": " ++ label.text)
    ++ error.help?.toList.map fun help => "  help: " ++ help

def ofPassError (error : PassError) : Outcome :=
  ⟨1, [], ["error: " ++ error.message]⟩

def joined (lines : List String) : String :=
  String.join (lines.map (· ++ "\n"))

end Outcome

namespace Command

def usage : String :=
  String.intercalate "\n"
    [ "Generate source files from a type tree and text templates",
      "",
      "Usage: tessera <COMMAND>",
      "",
      "Commands:",
      "  generate     Render the type tree and write the generated document",
      "  check        Parse the type tree and report skipped nodes without writing anything",
      "  kinds        List registered classifications and their templates",
      "  completions  Generate shell completions (bash, elvish, fish, powershell, zsh)",
      "",
      "Options:",
      "  -c, --config <CONFIG>        Path to tessera.toml (defaults are used if there is none)",
      "  -i, --input <INPUT>          Type tree file (overrides tessera.toml)",
      "  -t, --templates <TEMPLATES>  Template directory (overrides tessera.toml)",
      "  -o, --output <OUTPUT>        generate: output file (overrides tessera.toml)",
      "      --dry-run                generate: preview the document without writing to disk",
      "      --dump                   check: print the normalized type tree as JSON",
      "  -h, --help                   Print help",
      "  -V, --version                Print version" ]

def versionText : String := "tessera 0.1.0"

/-- A script that completes the names of the commands. -/
def completionScript : Shell → String
  | .bash => "complete -W 'generate check kinds completions help' tessera"
  | .elvish =>
    "set edit:completion:arg-completer[tessera] = \x7b|@words| "
      ++ "put generate check kinds completions help \x7d"
  | .fish => "complete -c tessera -f -a 'generate check kinds completions help'"
  | .powershell =>
    "Register-ArgumentCompleter -Native -CommandName tessera -ScriptBlock \x7b "
      ++ "'generate', 'check', 'kinds', 'completions', 'help' \x7d"
  | .zsh => "compdef '_values command generate check kinds completions help' tessera"

variable {m : Type → Type} [Monad m] [WritesFiles m]

/-- Load a workspace and its tree and run a pass that gives lines. -/
def withTree (options : WorkspaceOptions)
    (pass : Workspace → TreeFile → m (Except PassError (List Line))) : m Outcome := do
  match ← Workspace.load options with
  | .error error => return .ofInputError error
  | .ok workspace =>
    match ← workspace.tree with
    | .error error => return .ofInputError error
    | .ok tree =>
      match ← pass workspace tree with
      | .error error => return .ofPassError error
      | .ok lines => return .ofLines lines

def run : Command → m Outcome
  | .generate options output dryRun =>
    withTree options fun workspace tree => do
      let summary ←
        if dryRun then workspace.preview tree
        else workspace.generate tree (output.getD workspace.output)
      return summary.map GenerationSummary.lines
  | .check options dump =>
    withTree options fun workspace tree => do
      return (← workspace.check tree dump).map CheckSummary.lines
  | .list options => do
    match ← Workspace.load options with
    | .error error => return .ofInputError error
    | .ok workspace => return .ofLines (← workspace.listRegistry).lines
  | .completions shell => return .ofText (completionScript shell)
  | .help => return .ofText usage
  | .version => return .ofText versionText

def runArguments (arguments : List String) : m Outcome :=
  match parse arguments with
  | .error error => return .ofUsageError error
  | .ok command => run command

end Command

end TreeGen
