import TreeGen.Classification
import TreeGen.Table

/-!
# Registered classifications

The registry says which resource holds the template of which classification.  It starts out with
the built-in classifications and grows by registration; registering a classification again changes
its resource and keeps its place.
-/

namespace TreeGen.Template

/-- Which resource holds the template of which classification. -/
abbrev Registry := Table String String

namespace Registry

def builtin : Registry :=
  .ofList (Classification.builtins.filterMap fun kind =>
    kind.defaultResource?.map fun resource => (kind.text, resource))

/-- Register a classification; the first component is the resource that it had before. -/
def register
    (registry : Registry)
    (classification resource : String) :
    Option String × Registry :=
  (registry.get? classification, registry.insert classification resource)

def resource? (registry : Registry) (classification : String) : Option String :=
  registry.get? classification

end Registry

end TreeGen.Template
