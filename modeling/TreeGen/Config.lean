import TreeGen.InputError
import TreeGen.Node.Measure
import TreeGen.Toml.Document

/-!
# The configuration

A configuration says where the generator reads from and writes to, how deep trees may be, and which
further classifications are registered.  Everything has a default, and nothing else may be said.
The settings may be written as a table or, by position, as an array.

A configuration that can be read must also make sense: the depth limit is at least one, and neither
a classification nor its resource is empty.
-/

namespace TreeGen

/-- Where the generator reads from and writes to. -/
structure Settings where
  input : String := "context.json"
  templates : String := "templates"
  output : String := "Source.cs"
  maxDepth : Nat := defaultMaxDepth
deriving DecidableEq, Repr

structure Config where
  settings : Settings
  /-- The classifications to register besides the built-in ones, in the order of their texts. -/
  registrations : List (String × String)
deriving DecidableEq, Repr

namespace Config

def defaultFilename : String := "tessera.toml"

def default : Config := ⟨{}, []⟩

/-! ## From a document -/

def text? : Toml → Option String
  | .string text => some text
  | _ => none

/-- The number that a value is, if it can be a limit. -/
def number? (value : Toml) : Option Nat := do
  let number ← value.integer?
  if 0 ≤ number ∧ number ≤ largestLimit then some number.toNat else none

def assign? (settings : Settings) : String × Toml → Option Settings
  | ("input", value) => (text? value).map fun path => { settings with input := path }
  | ("templates", value) => (text? value).map fun path => { settings with templates := path }
  | ("output", value) => (text? value).map fun path => { settings with output := path }
  | ("max_depth", value) => (number? value).map fun depth => { settings with maxDepth := depth }
  | _ => none

/-- The settings that a value describes: a table, or an array whose elements stand for the settings
in their order and may be followed by anything. -/
def settings? : Toml → Option Settings
  | .array items =>
    (["input", "templates", "output", "max_depth"].zip items).foldlM assign? {}
  | value => do (← value.entries?).foldlM assign? {}

/-- The texts that a value pairs with its keys. -/
def pairs? (value : Toml) : Option (List (String × String)) := do
  (← value.entries?).mapM fun (key, value) => do
    return (key, ← text? value)

/-- The registrations that a value describes, sorted by classification. -/
def registrations? (value : Toml) : Option (List (String × String)) :=
  (pairs? value).map fun pairs => pairs.mergeSort fun a b => decide (a.1 ≤ b.1)

def extend? (config : Config) : String × Toml → Option Config
  | ("generator", value) =>
    (settings? value).map fun settings => { config with settings := settings }
  | ("templates", value) =>
    (registrations? value).map fun pairs => { config with registrations := pairs }
  | _ => none

def ofText? (text : String) : Option Config := do
  (← Toml.parse? text).foldlM extend? default

/-! ## Validation -/

/-- A rule that a configuration can break. -/
inductive Violation where
  | zeroDepth
  | emptyClassification
  | emptyResource (classification : String)
deriving DecidableEq, Repr

def Violation.message : Violation → String
  | .zeroDepth => "`max_depth` must be at least 1"
  | .emptyClassification => "classification must not be empty"
  | .emptyResource classification =>
    "template resource for '" ++ classification ++ "' must not be empty"

/-- The key whose first occurrence in the text shows where a rule is broken. -/
def Violation.key? : Violation → Option String
  | .zeroDepth => some "max_depth"
  | .emptyClassification => none
  | .emptyResource classification => some classification

def registrationViolation? : String × String → Option Violation
  | (classification, resource) =>
    if classification = "" then some .emptyClassification
    else if resource = "" then some (.emptyResource classification)
    else none

/-- The first rule that a configuration breaks. -/
def violation? (config : Config) : Option Violation :=
  if config.settings.maxDepth = 0 then some .zeroDepth
  else config.registrations.findSome? registrationViolation?

def Violation.toInputError (text : String) (violation : Violation) : InputError :=
  .invalid violation.message (violation.key?.bind fun key => Text.Span.ofFirst? key text)

def read (text : String) : Except InputError Config :=
  match ofText? text with
  | none => .error .badConfig
  | some config =>
    match config.violation? with
    | some violation => .error (violation.toInputError text)
    | none => .ok config

end Config

end TreeGen
