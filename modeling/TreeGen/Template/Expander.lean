import TreeGen.Node
import TreeGen.Node.Measure
import TreeGen.Notice
import TreeGen.Template.Filling
import TreeGen.Template.Library

/-!
# Expanding a type tree

A node expands to the template of its classification, filled with the node's name, its type and the
expanded children, one after another.  A node whose template cannot be had expands to nothing, with
everything below it, and leaves a notice.  The only failure is a node below the level limit.

Notices are threaded as a state under the failure, so the ones that were raised before a failure
stay with the caller.
-/

namespace TreeGen.Template

/-- Why a tree cannot be expanded. -/
inductive ExpansionError where
  /-- A node lies deeper than the limit; the location joins the names from the root by dots. -/
  | tooDeep (location : String) (limit : Nat)
deriving DecidableEq, Repr

def ExpansionError.message : ExpansionError → String
  | .tooDeep location limit =>
    "type tree exceeds the maximum nesting depth of " ++ toString limit
      ++ " at '" ++ location ++ "'"

/-- A computation that collects notices and may fail; a failure keeps what was collected. -/
abbrev ExpansionM := ExceptT ExpansionError (StateM Notices)

/-- Templates to expand, and the level below which nodes are refused. -/
structure Expander where
  templates : Library
  /-- The deepest level allowed; roots are on level one. -/
  maxDepth : Nat := defaultMaxDepth

namespace Expander

def raise (notice : Notice) : ExpansionM Unit :=
  modify (· ++ [notice])

mutual

/-- Expand a node that lies at `location` on the level `level`. -/
def expandNode (expander : Expander) (location : String) (level : Nat) : Node → ExpansionM String
  | ⟨name, classification, declaredType, children⟩ =>
    if level > expander.maxDepth then
      throw (.tooDeep location expander.maxDepth)
    else
      match expander.templates.find classification with
      | .present template => do
        let inner ← expandChildren expander location (level + 1) children
        let values : Values :=
          { name := some name
            typeName := declaredType.filter (· ≠ "")
            children := some inner }
        return values.fill template
      | .unregistered => do
        raise ((Notice.unregistered classification).located location)
        return ""
      | .missing resource => do
        raise ((Notice.missing classification resource).located location)
        return ""

def expandChildren (expander : Expander) (location : String) (level : Nat) :
    List Node → ExpansionM String
  | [] => return ""
  | child :: rest => do
    let first ← expandNode expander (location ++ "." ++ child.name) level child
    let others ← expandChildren expander location level rest
    return first ++ others

end

def expand (expander : Expander) (root : Node) : ExpansionM String :=
  expander.expandNode root.name 1 root

def expandAll (expander : Expander) : List Node → ExpansionM String
  | [] => return ""
  | root :: rest => do
    let first ← expander.expand root
    let others ← expander.expandAll rest
    return first ++ others

end Expander

end TreeGen.Template
