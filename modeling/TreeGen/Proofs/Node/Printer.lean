import TreeGen.Node.Measure
import TreeGen.Node.Printer
import TreeGen.Proofs.Json.Printer

/-!
# The values that describe nodes

A node is described by strings, arrays and objects only.  Every level of a tree takes two brackets,
the object of the node and the array of its children, which is written even when there are none.
-/

namespace TreeGen.Node

open Json (Textual TextualItems TextualMembers nesting nestingItems nestingMembers)

/-! ## Strings, arrays and objects -/

mutual

theorem textual_toJson : ∀ node : Node, Textual node.toJson
  | ⟨name, classification, declaredType, children⟩ => by
    have hchildren := textualItems_toJsonAll children
    rw [toJson]
    cases declaredType <;> simpa [Textual, TextualMembers] using hchildren

theorem textualItems_toJsonAll : ∀ nodes : List Node, TextualItems (toJsonAll nodes)
  | [] => by simp [toJsonAll, TextualItems]
  | node :: nodes => by
    rw [toJsonAll, TextualItems]
    exact ⟨textual_toJson node, textualItems_toJsonAll nodes⟩

end

/-! ## Two brackets for each level -/

mutual

theorem nesting_toJson : ∀ node : Node, node.toJson.nesting = 2 * node.height
  | ⟨name, classification, declaredType, children⟩ => by
    have hchildren := nestingItems_toJsonAll children
    have hmembers : nestingMembers
        ([("Name", .string name), ("Classification", .string classification)]
          ++ (declaredType.map fun type => ("Type", Json.string type)).toList
          ++ [("Children", .array (toJsonAll children))]) =
        1 + nestingItems (toJsonAll children) := by
      cases declaredType <;> simp [nestingMembers, nesting]
    rw [toJson, nesting, hmembers, hchildren, height]
    omega

theorem nestingItems_toJsonAll :
    ∀ nodes : List Node, nestingItems (toJsonAll nodes) = 2 * heightAll nodes
  | [] => by simp [toJsonAll, nestingItems, heightAll]
  | node :: nodes => by
    rw [toJsonAll, nestingItems, heightAll, nesting_toJson node, nestingItems_toJsonAll nodes]
    omega

end

end TreeGen.Node
