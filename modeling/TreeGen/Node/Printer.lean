import TreeGen.Json.Printer
import TreeGen.Node

/-!
# Nodes as JSON

A node is written as an object with its name, its classification, its type if it has one, and its
children, in this order.  The children are written even when there are none.
-/

namespace TreeGen.Node

mutual

def toJson : Node → Json
  | ⟨name, classification, declaredType, children⟩ =>
    .object
      ([("Name", .string name), ("Classification", .string classification)]
        ++ (declaredType.map fun type => ("Type", Json.string type)).toList
        ++ [("Children", .array (toJsonAll children))])

def toJsonAll : List Node → List Json
  | [] => []
  | node :: rest => toJson node :: toJsonAll rest

end

def compactText (node : Node) : String :=
  node.toJson.compact

/-- The indented text of a list of roots. -/
def dump (roots : List Node) : String :=
  (Json.array (toJsonAll roots)).pretty

end TreeGen.Node
