/-!
# Classifications

The classification of a node is free text.  Two texts are built in and come with a template
resource of their own; every other text is kept as it is.  Matching is exact.
-/

namespace TreeGen

/-- What a node's classification text stands for. -/
inductive Classification where
  | classDecl
  | propertyDecl
  | other (text : String)
deriving DecidableEq, Repr

namespace Classification

def ofText (text : String) : Classification :=
  if text = "Class" then .classDecl
  else if text = "Property" then .propertyDecl
  else .other text

def text : Classification → String
  | .classDecl => "Class"
  | .propertyDecl => "Property"
  | .other text => text

def defaultResource? : Classification → Option String
  | .classDecl => some "class-template.tmpl"
  | .propertyDecl => some "property-template.tmpl"
  | .other _ => none

/-- The classifications that need no registration. -/
def builtins : List Classification :=
  [.classDecl, .propertyDecl]

end Classification

end TreeGen
