import TreeGen.Node

/-!
# The nodes of a tree in pre-order

Every node of a tree is listed once, a node before its children and a child with everything below it
before the next one.  Each comes with its proper ancestors, since what becomes of a node depends on
them, and nodes of the same name are told apart by them only as far as their locations differ.
-/

namespace TreeGen

/-- A node in its place: its proper ancestors, the root first, and the node itself. -/
structure PlacedNode where
  ancestors : List Node
  node : Node
deriving Repr

/-- The names from the root down to the node, joined by dots. -/
def PlacedNode.location (placed : PlacedNode) : String :=
  ".".intercalate ((placed.ancestors ++ [placed.node]).map Node.name)

def locationPrefix (ancestors : List Node) : String :=
  String.join (ancestors.map fun ancestor => ancestor.name ++ ".")

theorem locationPrefix_append_singleton (ancestors : List Node) (node : Node) :
    locationPrefix (ancestors ++ [node]) = locationPrefix ancestors ++ node.name ++ "." := by
  simp [locationPrefix, String.append_assoc]

theorem PlacedNode.location_eq (placed : PlacedNode) :
    placed.location = locationPrefix placed.ancestors ++ placed.node.name := by
  obtain ⟨ancestors, node⟩ := placed
  rw [location, locationPrefix]
  induction ancestors with
  | nil => simp
  | cons ancestor ancestors ih =>
      have hne : (ancestors ++ [node]).map Node.name ≠ [] := by simp
      rw [List.cons_append, List.map_cons, String.intercalate_cons_of_ne_nil hne, ih,
        List.map_cons, String.join_cons]
      simp only [String.append_assoc]

namespace Node

mutual

/-- The nodes of a tree that stands below the given ancestors. -/
def preorder (ancestors : List Node) : Node → List PlacedNode
  | ⟨name, classification, declaredType, children⟩ =>
    ⟨ancestors, ⟨name, classification, declaredType, children⟩⟩ ::
      preorderAll (ancestors ++ [⟨name, classification, declaredType, children⟩]) children

def preorderAll (ancestors : List Node) : List Node → List PlacedNode
  | [] => []
  | node :: rest => preorder ancestors node ++ preorderAll ancestors rest

end

theorem preorderAll_cons (ancestors : List Node) (node : Node) (rest : List Node) :
    preorderAll ancestors (node :: rest) =
      ⟨ancestors, node⟩ :: preorderAll (ancestors ++ [node]) node.children
        ++ preorderAll ancestors rest := by
  obtain ⟨name, classification, declaredType, children⟩ := node
  rw [preorderAll, preorder]

mutual

theorem mem_ancestors_of_mem_preorder :
    ∀ (node : Node) (ancestors : List Node) (placed : PlacedNode),
      placed ∈ preorder ancestors node → ∀ ancestor ∈ ancestors, ancestor ∈ placed.ancestors
  | ⟨name, classification, declaredType, children⟩, ancestors, placed, h, ancestor, hmem => by
    rw [preorder, List.mem_cons] at h
    rcases h with rfl | h
    · exact hmem
    · exact mem_ancestors_of_mem_preorderAll children _ placed h ancestor
        (List.mem_append_left _ hmem)

theorem mem_ancestors_of_mem_preorderAll :
    ∀ (nodes : List Node) (ancestors : List Node) (placed : PlacedNode),
      placed ∈ preorderAll ancestors nodes → ∀ ancestor ∈ ancestors, ancestor ∈ placed.ancestors
  | [], ancestors, placed, h, ancestor, _ => by
    rw [preorderAll] at h
    exact absurd h List.not_mem_nil
  | node :: rest, ancestors, placed, h, ancestor, hmem => by
    rw [preorderAll, List.mem_append] at h
    rcases h with h | h
    · exact mem_ancestors_of_mem_preorder node ancestors placed h ancestor hmem
    · exact mem_ancestors_of_mem_preorderAll rest ancestors placed h ancestor hmem

end

end Node

end TreeGen
