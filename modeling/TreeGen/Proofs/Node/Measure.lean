import Mathlib.Algebra.GroupWithZero.Nat
import TreeGen.Node.Measure

/-!
# The depth of a tree is its height

The walk over pending nodes keeps the deepest level met so far.  What it will return is therefore
the larger of that level and the deepest level below any pending node, and a node on a given level
reaches as many levels further down as its children are high.  The walk that counts returns what it
has counted so far and the sizes of the pending trees.
-/

namespace TreeGen.Node

theorem height_eq (node : Node) : node.height = 1 + heightAll node.children := by
  cases node
  rfl

/-- The deepest level below some pending nodes, each with the level it lies on. -/
def deepestBelow : List (Node × Nat) → Nat
  | [] => 0
  | (node, level) :: pending => max (level + heightAll node.children) (deepestBelow pending)

theorem deepestBelow_append (a b : List (Node × Nat)) :
    deepestBelow (a ++ b) = max (deepestBelow a) (deepestBelow b) := by
  induction a with
  | nil => simp [deepestBelow]
  | cons first a ih =>
      obtain ⟨node, level⟩ := first
      simp [deepestBelow, ih, Nat.max_assoc]

/-- The children of a node on `level` reach down as far as the node does. -/
theorem max_deepestBelow_children (level : Nat) (children : List Node) :
    max level (deepestBelow (children.map fun child => (child, level + 1))) =
      level + heightAll children := by
  induction children with
  | nil => simp [deepestBelow, heightAll]
  | cons child children ih =>
      rw [List.map_cons, deepestBelow, heightAll, height_eq]
      omega

theorem deepestPending_eq (deepest : Nat) (pending : List (Node × Nat)) :
    deepestPending deepest pending = max deepest (deepestBelow pending) := by
  induction deepest, pending using deepestPending.induct with
  | case1 deepest => simp [deepestPending, deepestBelow]
  | case2 deepest node level pending ih =>
      have hchildren := max_deepestBelow_children level node.children
      simp only [List.map_attach_eq_pmap, List.pmap_eq_map] at ih
      rw [deepestPending, ih, deepestBelow_append, deepestBelow]
      omega

/-- The walk over pending nodes measures the height. -/
theorem depth_eq_height (node : Node) : node.depth = node.height := by
  rw [depth, deepestPending_eq, deepestBelow, deepestBelow, height_eq]
  omega

theorem heightAll_le_iff {nodes : List Node} {limit : Nat} :
    heightAll nodes ≤ limit ↔ ∀ node ∈ nodes, node.depth ≤ limit := by
  induction nodes with
  | nil => simp [heightAll]
  | cons node nodes ih =>
      rw [heightAll, Nat.max_le, ih, List.forall_mem_cons, depth_eq_height]

/-- The largest depth of several trees, zero when there are none. -/
def largestDepth (roots : List Node) : Nat :=
  (roots.map depth).foldr max 0

theorem largestDepth_eq_heightAll (roots : List Node) : largestDepth roots = heightAll roots := by
  induction roots with
  | nil => rfl
  | cons root roots ih =>
      rw [heightAll, ← ih, ← depth_eq_height]
      rfl

/-! ## The number of nodes -/

theorem countPending_eq (count : Nat) (pending : List Node) :
    countPending count pending = count + sizeAll pending := by
  induction count, pending using countPending.induct with
  | case1 count => rw [countPending, sizeAll, Nat.add_zero]
  | case2 count node pending ih =>
      rw [countPending, ih, sizeAll_append, sizeAll, size_eq]
      omega

theorem nodeCount_eq_size (node : Node) : node.nodeCount = node.size := by
  rw [nodeCount, countPending_eq, sizeAll, sizeAll, Nat.zero_add, Nat.add_zero]

theorem sizeAll_eq_sum (nodes : List Node) : sizeAll nodes = (nodes.map nodeCount).sum := by
  induction nodes with
  | nil => rfl
  | cons node nodes ih => rw [sizeAll, ih, List.map_cons, List.sum_cons, nodeCount_eq_size]

end TreeGen.Node
