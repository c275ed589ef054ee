import TreeGen.Files
import TreeGen.Path
import TreeGen.Template.Registry

/-!
# Loaded templates

A library is a registry together with the text of every resource that is registered.  Each resource
is asked for once, in the order in which the registry first mentions it, and one that cannot be had
is remembered as missing.  From then on the question for a template always has the same answer: a
classification is not registered, or its resource is missing, or here is its template.

The texts come from a directory, or from a host that hands them over.  The name of a resource in a
directory may be any path; an absolute one leads out of the directory.
-/

namespace TreeGen.Template

/-! ## Where texts come from -/

/-- The text of a resource in a directory; nothing when the file cannot be read or is no text. -/
def readResource? {m : Type → Type} [ReadsFiles m] (directory resource : String) :
    m (Option String) :=
  ReadsFiles.readText? (Path.join directory resource)

/-- The texts that a host has handed over, by the name of the resource. -/
abbrev Holdings := Table String String

def Holdings.text? (holdings : Holdings) (resource : String) : Option String :=
  holdings.get? resource

/-! ## Libraries -/

/-- What is known about the template of a classification. -/
inductive Availability where
  | present (template : String)
  | unregistered
  /-- A resource is registered but has no text. -/
  | missing (resource : String)
deriving DecidableEq, Repr

def Availability.template? : Availability → Option String
  | .present template => some template
  | .unregistered => none
  | .missing _ => none

/-- A registry with the texts of its resources. -/
structure Library where
  registry : Registry
  /-- The text of each resource, `none` for one that could not be loaded. -/
  texts : Table String (Option String)

namespace Library

/-- Ask for a resource, unless it has been asked for. -/
def askOnce {m : Type → Type} [Monad m] (ask : String → m (Option String))
    (texts : Table String (Option String)) (resource : String) :
    m (Table String (Option String)) :=
  if texts.contains resource then pure texts
  else do return texts.insert resource (← ask resource)

/-- Load the resources of a registry by walking through its registrations. -/
def load {m : Type → Type} [Monad m] (ask : String → m (Option String)) (registry : Registry) :
    m Library := do
  let texts ← (registry.entries.map Prod.snd).foldlM (askOnce ask) .empty
  return ⟨registry, texts⟩

/-- Load a registry from resources that are at hand as a function of their name. -/
def ofSource (source : String → Option String) (registry : Registry) : Library :=
  Id.run (load (fun resource => pure (source resource)) registry)

/-- The library of templates given by classification; each classification is its own resource, and
a later template replaces an earlier one. -/
def ofTemplates (templates : List (String × String)) : Library where
  registry := .ofList (templates.map fun (classification, _) => (classification, classification))
  texts := .ofList (templates.map fun (classification, text) => (classification, some text))

def find (library : Library) (classification : String) : Availability :=
  match library.registry.resource? classification with
  | none => .unregistered
  | some resource =>
    match library.texts.get? resource with
    | some (some template) => .present template
    | _ => .missing resource

/-- The registrations whose resource has no text, in the order of the registry. -/
def gaps (library : Library) : List (String × String) :=
  library.registry.entries.filter fun (_, resource) =>
    ((library.texts.get? resource).getD none).isNone

end Library

end TreeGen.Template
