import TreeGen.Text.Place

/-!
# Errors about what the program reads

Everything that can be wrong with an input file is one of these errors.  An error knows its wording,
a code, advice on what to do, and the stretch of the text it is about, if it is about one.
-/

namespace TreeGen

open Text (Span)

/-- A text together with the name of the file it came from. -/
structure Source where
  filename : String
  text : String
deriving DecidableEq, Repr

/-- Why an input cannot be used. -/
inductive InputError where
  | unreadable (path : String)
  | malformed (message : String)
  | emptyInput (filename : String)
  | badNode (path message : String) (span : Option Span)
  | tooDeep (location : String) (limit : Nat) (span : Option Span)
  | badConfig
  | invalid (message : String) (span : Option Span)
deriving DecidableEq, Repr

/-- A remark on a stretch of the text. -/
structure Label where
  text : String
  span : Span
deriving DecidableEq, Repr

namespace InputError

def message : InputError → String
  | .unreadable path => "failed to read '" ++ path ++ "'"
  | .malformed message => "failed to parse type tree: " ++ message
  | .emptyInput filename => "type tree '" ++ filename ++ "' is empty"
  | .badNode path message _ => "invalid type node at " ++ path ++ ": " ++ message
  | .tooDeep location limit _ =>
    "type tree exceeds the maximum nesting depth of " ++ toString limit ++ " at " ++ location
  | .badConfig => "failed to parse tessera.toml"
  | .invalid message _ => message

def code? : InputError → Option String
  | .unreadable _ => none
  | .malformed _ => some "tessera::syntax_error"
  | .emptyInput _ => some "tessera::empty_input"
  | .badNode _ _ _ => some "tessera::invalid_node"
  | .tooDeep _ _ _ => some "tessera::too_deep"
  | .badConfig => some "tessera::config_error"
  | .invalid _ _ => some "tessera::validation_error"

def help? : InputError → Option String
  | .unreadable _ => some "check the `input` and `templates` paths in tessera.toml"
  | .malformed _ => none
  | .emptyInput _ =>
    some "provide a JSON array of type nodes, or `[]` to generate an empty document"
  | .badNode _ _ _ =>
    some "`Name` and `Classification` must be strings; `Type` and `Children` are optional"
  | .tooDeep _ _ _ => some "raise `max_depth` in tessera.toml if this nesting is intentional"
  | .badConfig => none
  | .invalid _ _ => none

/-- The remark on the place of the error, if the place is known. -/
def label? : InputError → Option Label
  | .badNode _ _ span => span.map fun span => ⟨"in this node", span⟩
  | .tooDeep _ _ span => span.map fun span => ⟨"nesting limit exceeded here", span⟩
  | .invalid message span => span.map fun span => ⟨message, span⟩
  | .unreadable _ | .malformed _ | .emptyInput _ | .badConfig => none

def concernsTree : InputError → Bool
  | .malformed _ | .emptyInput _ | .badNode _ _ _ | .tooDeep _ _ _ => true
  | .unreadable _ | .badConfig | .invalid _ _ => false

end InputError

end TreeGen
