import TreeGen.Node

/-!
# The size and the depth of a type tree

Trees come from outside and may be deep, so the measures that the program reports walk a list of
pending nodes instead of calling themselves.  Beside them stand the measures as one would define
them on paper: the size by summing over the children and the height by taking the largest.  The
walks end because the pending nodes lose one node in total at every step.

A limit on the depth is a number of levels.  It comes from a configuration, which can hold any
number of 64 bits; the largest of them is beyond the depth of every tree and so stands for no limit
at all.
-/

namespace TreeGen

/-- The number of levels that a tree may have where no limit is given. -/
def defaultMaxDepth : Nat := 64

def largestLimit : Nat := 18446744073709551615

namespace Node

mutual

/-- The number of nodes of a tree: one more than its children's sizes together. -/
def size : Node → Nat
  | ⟨_, _, _, children⟩ => 1 + sizeAll children

def sizeAll : List Node → Nat
  | [] => 0
  | node :: rest => size node + sizeAll rest

end

mutual

/-- The height of a tree: one more than the largest height of a child. -/
def height : Node → Nat
  | ⟨_, _, _, children⟩ => 1 + heightAll children

/-- The largest height of several trees, zero when there are none. -/
def heightAll : List Node → Nat
  | [] => 0
  | node :: rest => max (height node) (heightAll rest)

end

theorem size_eq (node : Node) : node.size = 1 + sizeAll node.children := by
  cases node
  rfl

theorem sizeAll_append (a b : List Node) : sizeAll (a ++ b) = sizeAll a + sizeAll b := by
  induction a with
  | nil => simp [sizeAll]
  | cons node rest ih => simp [sizeAll, ih, Nat.add_assoc]

/-! ## Walking a list of pending nodes -/

/-- Count the pending trees' nodes on top of `count`. -/
def countPending (count : Nat) : List Node → Nat
  | [] => count
  | node :: pending => countPending (count + 1) (node.children ++ pending)
termination_by pending => sizeAll pending
decreasing_by
  simp [sizeAll, sizeAll_append, size_eq]

def nodeCount (node : Node) : Nat :=
  countPending 0 [node]

/-- The deepest level among `deepest` and the levels of all pending trees' nodes, where each
pending tree comes with the level of its root. -/
def deepestPending (deepest : Nat) : List (Node × Nat) → Nat
  | [] => deepest
  | (node, level) :: pending =>
    deepestPending (max deepest level)
      (node.children.map (fun child => (child, level + 1)) ++ pending)
termination_by pending => sizeAll (pending.map Prod.fst)
decreasing_by
  simp [sizeAll, sizeAll_append, size_eq, Function.comp_def]

/-- The number of levels of the tree; a leaf has one. -/
def depth (node : Node) : Nat :=
  deepestPending 0 [(node, 1)]

end Node

end TreeGen
