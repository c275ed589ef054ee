import TreeGen.Command

/-!
# Command lines

The arguments name a command and, behind it, its options.  An option with a value takes it from the
same argument, behind an equals sign or right behind a short name, or from the next argument, which
must then not look like an option.  Short names may be written together.  Names are not abbreviated,
nothing is given twice, no value is empty, and behind two hyphens nothing is an option any more.

Arguments are taken one by one; the first problem, or the first request for help or for the version,
decides.
-/

namespace TreeGen.Command

/-- What can be wrong with a command line. -/
inductive UsageError where
  | missingCommand
  | unknownCommand (name : String)
  | unexpectedArgument (argument : String)
  | repeated (option : String)
  | missingValue (option : String)
  | unexpectedValue (option : String)
  | missingArgument (name : String)
  | invalidArgument (argument : String)
deriving DecidableEq, Repr

def UsageError.message : UsageError → String
  | .missingCommand => "a command is required"
  | .unknownCommand name => "unrecognized command '" ++ name ++ "'"
  | .unexpectedArgument argument => "unexpected argument '" ++ argument ++ "'"
  | .repeated option => "option '--" ++ option ++ "' cannot be used twice"
  | .missingValue option => "a value is required for '--" ++ option ++ "'"
  | .unexpectedValue option => "no value is expected for '--" ++ option ++ "'"
  | .missingArgument name => "argument '" ++ name ++ "' is required"
  | .invalidArgument argument => "invalid value '" ++ argument ++ "'"

/-- Why reading a command line ends early. -/
inductive Interruption where
  | usage (error : UsageError)
  | help
  | version
deriving DecidableEq, Repr

/-- An option of a command. -/
structure Parameter where
  /-- The name behind two hyphens. -/
  long : String
  /-- The name behind one hyphen. -/
  short : Option Char
  hasValue : Bool
deriving DecidableEq, Repr

/-- What a command can be given. -/
structure Form where
  parameters : List Parameter
  /-- The words that its one plain argument may be, if it has one. -/
  words : Option (List String)
deriving Repr

structure Given where
  /-- The options with their values; a flag has an empty one. -/
  options : List (String × String)
  word : Option String
deriving Repr

namespace Given

def nothing : Given := ⟨[], none⟩

def value? (given : Given) (option : String) : Option String :=
  given.options.lookup option

def has (given : Given) (flag : String) : Bool :=
  (given.value? flag).isSome

def accept (given : Given) (parameter : Parameter) (value : String) :
    Except Interruption Given :=
  if parameter.long = "help" then .error .help
  else if parameter.long = "version" then .error .version
  else if given.has parameter.long then .error (.usage (.repeated parameter.long))
  else if parameter.hasValue ∧ value = "" then .error (.usage (.missingValue parameter.long))
  else .ok { given with options := given.options ++ [(parameter.long, value)] }

def acceptWord (form : Form) (given : Given) (argument : String) : Except Interruption Given :=
  match form.words, given.word with
  | some words, none =>
    if argument ∈ words then .ok { given with word := some argument }
    else .error (.usage (.invalidArgument argument))
  | _, _ => .error (.usage (.unexpectedArgument argument))

/-- Take short names that are written together; an option that still needs its value is handed
back. -/
def acceptCluster (form : Form) (given : Given) :
    List Char → Except Interruption (Given × Option Parameter)
  | [] => .ok (given, none)
  | c :: rest =>
    match form.parameters.find? fun parameter => parameter.short == some c with
    | none => .error (.usage (.unexpectedArgument ("-" ++ String.singleton c)))
    | some parameter =>
      if parameter.hasValue then
        match rest with
        | [] => .ok (given, some parameter)
        | '=' :: value => (given.accept parameter (String.ofList value)).map (·, none)
        | value => (given.accept parameter (String.ofList value)).map (·, none)
      else
        match given.accept parameter "" with
        | .error interruption => .error interruption
        | .ok given => acceptCluster form given rest

/-- Take what stands behind two hyphens; an option that still needs its value is handed back. -/
def acceptLong (form : Form) (given : Given) (argument : List Char) :
    Except Interruption (Given × Option Parameter) :=
  let name := String.ofList (argument.takeWhile (· ≠ '='))
  let value := argument.dropWhile (· ≠ '=')
  match form.parameters.find? fun parameter => parameter.long == name with
  | none => .error (.usage (.unexpectedArgument ("--" ++ name)))
  | some parameter =>
    match value, parameter.hasValue with
    | [], true => .ok (given, some parameter)
    | [], false => (given.accept parameter "").map (·, none)
    | _ :: value, true => (given.accept parameter (String.ofList value)).map (·, none)
    | _ :: _, false => .error (.usage (.unexpectedValue parameter.long))

/-- Take all arguments, of which the first may be the value of a pending option. -/
def acceptAll (form : Form) (given : Given) (pending : Option Parameter) :
    List String → Except Interruption Given
  | [] =>
    match pending with
    | none => .ok given
    | some parameter => .error (.usage (.missingValue parameter.long))
  | argument :: rest =>
    match pending, argument.toList with
    | some parameter, '-' :: _ :: _ => .error (.usage (.missingValue parameter.long))
    | some parameter, _ => do
      acceptAll form (← given.accept parameter argument) none rest
    | none, ['-', '-'] => rest.foldlM (acceptWord form) given
    | none, '-' :: '-' :: long => do
      let (given, pending) ← given.acceptLong form long
      acceptAll form given pending rest
    | none, '-' :: c :: more => do
      let (given, pending) ← given.acceptCluster form (c :: more)
      acceptAll form given pending rest
    | none, _ => do
      acceptAll form (← given.acceptWord form argument) none rest

end Given

/-! ## The commands' forms -/

def helpFlag : Parameter := ⟨"help", some 'h', false⟩

def workspaceParameters : List Parameter :=
  [ ⟨"config", some 'c', true⟩,
    ⟨"input", some 'i', true⟩,
    ⟨"templates", some 't', true⟩,
    helpFlag ]

/-- What stands before the command's name. -/
def topForm : Form := ⟨[helpFlag, ⟨"version", some 'V', false⟩], none⟩

def generateForm : Form :=
  ⟨workspaceParameters ++ [⟨"output", some 'o', true⟩, ⟨"dry-run", none, false⟩], none⟩

def checkForm : Form :=
  ⟨workspaceParameters ++ [⟨"dump", none, false⟩], none⟩

def listForm : Form :=
  ⟨workspaceParameters, none⟩

def completionsForm : Form :=
  ⟨[helpFlag], some (Shell.all.map Shell.name)⟩

def Given.workspaceOptions (given : Given) : WorkspaceOptions where
  config := (given.value? "config").getD Config.defaultFilename
  input := given.value? "input"
  templates := given.value? "templates"

def names : List String :=
  ["generate", "check", "kinds", "completions", "help"]

def ofName (name : String) (arguments : List String) : Except Interruption Command := do
  match name with
  | "generate" =>
    let given ← Given.nothing.acceptAll generateForm none arguments
    return .generate given.workspaceOptions (given.value? "output") (given.has "dry-run")
  | "check" =>
    let given ← Given.nothing.acceptAll checkForm none arguments
    return .check given.workspaceOptions (given.has "dump")
  | "kinds" =>
    let given ← Given.nothing.acceptAll listForm none arguments
    return .list given.workspaceOptions
  | "completions" =>
    let given ← Given.nothing.acceptAll completionsForm none arguments
    match given.word.bind Shell.ofName? with
    | some shell => return .completions shell
    | none => throw (.usage (.missingArgument "shell"))
  | "help" =>
    match arguments with
    | [] => throw .help
    | [topic] => if topic ∈ names then throw .help else throw (.usage (.unknownCommand topic))
    | _ :: other :: _ => throw (.usage (.unknownCommand other))
  | other => throw (.usage (.unknownCommand other))

def ofArguments : List String → Except Interruption Command
  | [] => .error (.usage .missingCommand)
  | first :: rest =>
    match first.toList with
    | ['-', '-'] =>
      match rest with
      | [] => .error (.usage .missingCommand)
      | argument :: _ => .error (.usage (.unexpectedArgument argument))
    | '-' :: _ :: _ => do
      let _ ← Given.nothing.acceptAll topForm none [first]
      throw (.usage .missingCommand)
    | _ => ofName first rest

/-- The command that the arguments name, where asking for help or for the version is a command. -/
def parse (arguments : List String) : Except UsageError Command :=
  match ofArguments arguments with
  | .ok command => .ok command
  | .error .help => .ok .help
  | .error .version => .ok .version
  | .error (.usage error) => .error error

end TreeGen.Command
