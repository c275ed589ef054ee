import TreeGen.Delivery

/-!
# Summaries

What a command found out is a summary, and a summary is shown as lines.  A line knows what it is
for, so that whoever shows it can tell warnings from the rest.
-/

namespace TreeGen

/-- One line of a summary. -/
inductive Line where
  | heading (name : String)
  | keyed (key value : String)
  | item (mark : Char) (text : String)
  | warning (message : String)
  | divider (caption : String)
  | plain (text : String)
  | blank
deriving DecidableEq, Repr

namespace Line

def shown : Line → String
  | .heading name => name ++ ":"
  | .keyed key value => key ++ ": " ++ value
  | .item mark text => "  " ++ String.singleton mark ++ " " ++ text
  | .warning message => "warning: " ++ message
  | .divider caption => "── " ++ caption ++ " ──"
  | .plain text => text
  | .blank => ""

def isWarning : Line → Bool
  | .warning _ => true
  | _ => false

end Line

/-! ## Generating -/

/-- What became of a generated document. -/
inductive DocumentFate where
  | delivered (path : String) (delivery : Delivery)
  | previewed (name content : String)
deriving DecidableEq, Repr

/-- What a generation pass found out. -/
structure GenerationSummary where
  input : String
  rootCount : Nat
  nodeCount : Nat
  skippedCount : Nat
  warnings : List String
  fate : DocumentFate
deriving DecidableEq, Repr

def counted (count : Nat) (noun : String) : String :=
  toString count ++ " " ++ noun ++ (if count = 1 then "" else "s")

namespace GenerationSummary

def countLines (summary : GenerationSummary) : List Line :=
  [.keyed "Types" (counted summary.rootCount "root" ++ ", " ++ counted summary.nodeCount "node")]
    ++ (if summary.skippedCount > 0 then
          [.keyed "Skipped subtrees" (toString summary.skippedCount)]
        else [])

def lines (summary : GenerationSummary) : List Line :=
  summary.warnings.map .warning ++
    match summary.fate with
    | .previewed name content =>
      [.divider name, .plain content, .divider "Summary"] ++ summary.countLines
    | .delivered path delivery =>
      [.keyed "Input" summary.input] ++ summary.countLines ++
        [.blank,
          match delivery with
          | .written => .item '+' path
          | .unchanged => .item '-' (path ++ " (unchanged)")]

end GenerationSummary

/-! ## Checking -/

/-- What a check found out. -/
structure CheckSummary where
  input : String
  rootCount : Nat
  nodeCount : Nat
  warnings : List String
  infos : List String
  treeDump : Option String
deriving DecidableEq, Repr

def CheckSummary.lines (summary : CheckSummary) : List Line :=
  summary.warnings.map .warning
    ++ summary.infos.map (fun info => .plain ("info: " ++ info))
    ++ (if summary.warnings.isEmpty && summary.infos.isEmpty then [] else [.blank])
    ++ [.plain ("✓ " ++ summary.input ++ " is valid (" ++ toString summary.rootCount ++ " roots, "
          ++ toString summary.nodeCount ++ " nodes)")]
    ++ (match summary.treeDump with
        | some dump => [.blank, .plain dump]
        | none => [])

/-! ## Listing classifications -/

structure RegistrationSummary where
  classification : String
  resource : String
  available : Bool
deriving DecidableEq, Repr

/-- The registered classifications of a workspace. -/
structure RegistrySummary where
  templates : String
  registrations : List RegistrationSummary
deriving DecidableEq, Repr

def RegistrationSummary.line (registration : RegistrationSummary) : Line :=
  let mapping := registration.classification ++ " → " ++ registration.resource
  if registration.available then .item '+' mapping else .item '!' (mapping ++ " (missing)")

def RegistrySummary.lines (summary : RegistrySummary) : List Line :=
  .keyed "Templates" summary.templates
    :: .heading ("Classifications (" ++ toString summary.registrations.length ++ ")")
    :: summary.registrations.map RegistrationSummary.line

end TreeGen
