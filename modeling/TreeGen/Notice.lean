/-!
# Advisory notices

A node without a usable template is skipped, and a notice says so.  Notices never stop a pass.  They
are collected in the order in which they are raised.
-/

namespace TreeGen

/-- How much a notice matters. -/
inductive Severity where
  | warning
  | info
deriving DecidableEq, Repr

namespace Severity

def text : Severity → String
  | .warning => "warning"
  | .info => "info"

def isWarning (severity : Severity) : Bool :=
  decide (severity = .warning)

end Severity

/-- What a notice is about. -/
inductive Topic where
  | unregistered
  | missingTemplate
deriving DecidableEq, Repr

namespace Topic

def code : Topic → String
  | .unregistered => "unrecognized-classification"
  | .missingTemplate => "template-unavailable"

def ofCode? (code : String) : Option Topic :=
  [unregistered, missingTemplate].find? fun topic => topic.code == code

end Topic

/-- A notice about a skipped node. -/
structure Notice where
  severity : Severity
  topic : Topic
  message : String
  /-- The names from the root down to the node, joined by dots. -/
  location : Option String
deriving DecidableEq, Repr

namespace Notice

def unregistered (classification : String) : Notice where
  severity := .info
  topic := .unregistered
  message := "no template registered for classification '" ++ classification ++ "', node skipped"
  location := none

def missing (classification resource : String) : Notice where
  severity := .warning
  topic := .missingTemplate
  message := "template '" ++ resource ++ "' for classification '" ++ classification
    ++ "' could not be loaded, node skipped"
  location := none

def located (notice : Notice) (location : String) : Notice :=
  { notice with location := some location }

/-- The message followed by the place, if there is one. -/
def locatedMessage (notice : Notice) : String :=
  match notice.location with
  | some location => notice.message ++ " (at " ++ location ++ ")"
  | none => notice.message

def text (notice : Notice) : String :=
  notice.severity.text ++ ": " ++ notice.locatedMessage

end Notice

/-- Notices in the order in which they were raised. -/
abbrev Notices := List Notice

namespace Notices

def warnings (notices : Notices) : Notices :=
  notices.filter (·.severity.isWarning)

def hasWarnings (notices : Notices) : Bool :=
  notices.any (·.severity.isWarning)

def warningCount (notices : Notices) : Nat :=
  notices.warnings.length

def about (notices : Notices) (topic : Topic) : Notices :=
  notices.filter fun notice => decide (notice.topic = topic)

end Notices

end TreeGen
