import Mathlib.Algebra.BigOperators.Group.List.Basic
import TreeGen.Proofs.Node.Measure
import TreeGen.TreeFile

/-!
# Walks over pending nodes come to an end

A walk takes a pending item, accounts for it, and puts the items that lie below it among the pending
ones, until none is pending.  The pending items become more with most turns, but the trees they
stand for lose one node in total, so a walk takes as many turns as there are nodes.

The order does not matter: neither which of the pending items is taken, nor where the new ones are
put.  A stack, a queue and the lists that the measures here work on are cases of this.
-/

namespace TreeGen

namespace Node

/-! ## Walks in any order -/

section

variable {α β : Type} (account : β → α → β) (below : α → List α)

/-- One turn of a walk.  An item is taken out, wherever it stands, the result takes account of it,
and the items below it join the others, in whatever order. -/
inductive Turn (result : β) (pending : List α) : β → List α → Prop where
  | take {item : α} {before after next : List α}
      (taken : pending = before ++ item :: after)
      (put : next.Perm (below item ++ (before ++ after))) :
      Turn result pending (account result item) next

/-- Whichever items it takes, a walk ends after this number of turns, and always with the same
result. -/
inductive EndsAfter : Nat → β → List α → β → Prop where
  | done {result : β} : EndsAfter 0 result [] result
  | turn {turns : Nat} {result last : β} {item : α} {pending : List α}
      (each : ∀ result' pending', Turn account below result (item :: pending) result' pending' →
        EndsAfter turns result' pending' last) :
      EndsAfter (turns + 1) result (item :: pending) last

end

section

variable {α β : Type} {account : β → α → β} {below : α → List α}

/-- On a stack the item at the end is taken and the ones below it are put at the end. -/
theorem turn_of_stack (result : β) (pending : List α) (item : α) :
    Turn account below result (pending ++ [item])
      (account result item) (pending ++ below item) := by
  refine .take rfl ?_
  rw [List.append_nil]
  exact List.perm_append_comm

/-- A walk ends when every turn takes one off a weight that only the empty list lacks, and it ends
with what no turn changes. -/
theorem endsAfter_of_invariant
    (weight : List α → Nat) (outcome : β → List α → β)
    (hempty : ∀ pending, weight pending = 0 ↔ pending = [])
    (hdone : ∀ result, outcome result [] = result)
    (hturn : ∀ result pending result' pending',
      Turn account below result pending result' pending' →
        weight pending = weight pending' + 1 ∧
          outcome result' pending' = outcome result pending)
    (result : β) (pending : List α) :
    EndsAfter account below (weight pending) result pending (outcome result pending) := by
  generalize hweight : weight pending = turns
  induction turns generalizing result pending with
  | zero =>
      rw [(hempty pending).mp hweight, hdone]
      exact .done
  | succ turns ih =>
      cases pending with
      | nil =>
          have hzero := (hempty []).mpr rfl
          omega
      | cons item pending =>
          refine .turn ?_
          intro result' pending' hstep
          obtain ⟨hweight', houtcome⟩ := hturn _ _ _ _ hstep
          rw [← houtcome]
          exact ih result' pending' (by omega)

end

/-! ## The two walks of a tree -/

theorem sizeAll_perm {a b : List Node} (h : a.Perm b) : sizeAll a = sizeAll b := by
  rw [sizeAll_eq_sum, sizeAll_eq_sum]
  exact (h.map nodeCount).sum_eq

theorem deepestBelow_perm {a b : List (Node × Nat)} (h : a.Perm b) :
    deepestBelow a = deepestBelow b := by
  induction h with
  | nil => rfl
  | cons item _ ih => rw [deepestBelow, deepestBelow, ih]
  | swap first second rest => simp only [deepestBelow, Nat.max_left_comm]
  | trans _ _ ih ih' => rw [ih, ih']

theorem sizeAll_eq_zero_iff {nodes : List Node} : sizeAll nodes = 0 ↔ nodes = [] := by
  cases nodes with
  | nil => simp [sizeAll]
  | cons node nodes => simp [sizeAll, size_eq]

abbrev CountTurn := Turn (fun count (_ : Node) => count + 1) children

def childrenWithLevel : Node × Nat → List (Node × Nat)
  | (node, level) => node.children.map fun child => (child, level + 1)

abbrev DepthTurn := Turn (fun deepest (item : Node × Nat) => max deepest item.2) childrenWithLevel

theorem CountTurn.preserves
    {count count' : Nat} {pending pending' : List Node}
    (h : CountTurn count pending count' pending') :
    sizeAll pending = sizeAll pending' + 1 ∧
      countPending count' pending' = countPending count pending := by
  obtain ⟨rfl, hput⟩ := h
  have hnext := sizeAll_perm hput
  rw [sizeAll_append, sizeAll_append] at hnext
  rw [countPending_eq, countPending_eq, sizeAll_append, sizeAll, size_eq]
  omega

theorem DepthTurn.preserves
    {deepest deepest' : Nat} {pending pending' : List (Node × Nat)}
    (h : DepthTurn deepest pending deepest' pending') :
    sizeAll (pending.map Prod.fst) = sizeAll (pending'.map Prod.fst) + 1 ∧
      deepestPending deepest' pending' = deepestPending deepest pending := by
  obtain ⟨rfl, hput⟩ := h
  rename_i item before after
  obtain ⟨node, level⟩ := item
  constructor
  · have hnext := sizeAll_perm (hput.map Prod.fst)
    have hchildren : (childrenWithLevel (node, level)).map Prod.fst = node.children := by
      simp [childrenWithLevel, Function.comp_def]
    rw [List.map_append, List.map_append, hchildren, sizeAll_append, sizeAll_append] at hnext
    rw [List.map_append, List.map_cons, sizeAll_append, sizeAll, size_eq node]
    omega
  · -- The level of the node and its children reach as deep as the node does.
    have hchildren := max_deepestBelow_children level node.children
    have hnext := deepestBelow_perm hput
    rw [deepestBelow_append, deepestBelow_append, childrenWithLevel] at hnext
    rw [deepestPending_eq, deepestPending_eq, deepestBelow_append, deepestBelow]
    omega

theorem sizeAll_singleton (node : Node) : sizeAll [node] = node.nodeCount := by
  rw [sizeAll_eq_sum, List.map_singleton, List.sum_singleton]

theorem endsAfter_nodeCount (node : Node) :
    EndsAfter (fun count (_ : Node) => count + 1) children node.nodeCount 0 [node]
      node.nodeCount := by
  have hwalk := endsAfter_of_invariant sizeAll countPending
    (fun _ => sizeAll_eq_zero_iff) countPending.eq_1 (fun _ _ _ _ => CountTurn.preserves) 0 [node]
  rwa [sizeAll_singleton] at hwalk

theorem endsAfter_depth (node : Node) :
    EndsAfter (fun deepest (item : Node × Nat) => max deepest item.2) childrenWithLevel
      node.nodeCount 0 [(node, 1)] node.depth := by
  have hempty : ∀ pending : List (Node × Nat),
      sizeAll (pending.map Prod.fst) = 0 ↔ pending = [] := by
    intro pending
    rw [sizeAll_eq_zero_iff, List.map_eq_nil_iff]
  have hwalk := endsAfter_of_invariant (fun pending => sizeAll (pending.map Prod.fst))
    deepestPending hempty deepestPending.eq_1 (fun _ _ _ _ => DepthTurn.preserves) 0 [(node, 1)]
  rwa [List.map_singleton, sizeAll_singleton] at hwalk

/-! ## The measures as recursions -/

theorem depth_eq (node : Node) : node.depth = 1 + largestDepth node.children := by
  rw [depth_eq_height, height_eq, largestDepth_eq_heightAll]

theorem nodeCount_eq (node : Node) :
    node.nodeCount = 1 + (node.children.map nodeCount).sum := by
  rw [nodeCount_eq_size, size_eq, sizeAll_eq_sum]

mutual

theorem height_le_size : ∀ node : Node, node.height ≤ node.size
  | ⟨_, _, _, children⟩ => by
    rw [height, size]
    exact Nat.add_le_add_left (heightAll_le_sizeAll children) 1

theorem heightAll_le_sizeAll : ∀ nodes : List Node, heightAll nodes ≤ sizeAll nodes
  | [] => Nat.le_refl 0
  | node :: nodes => by
    have hnode := height_le_size node
    have hnodes := heightAll_le_sizeAll nodes
    rw [heightAll, sizeAll]
    omega

end

theorem depth_le_nodeCount (node : Node) : node.depth ≤ node.nodeCount := by
  rw [depth_eq_height, nodeCount_eq_size]
  exact height_le_size node

end Node

theorem TreeFile.nodeCount_eq_sum (file : TreeFile) :
    file.nodeCount = (file.roots.map Node.nodeCount).sum := by
  rw [nodeCount, ← List.foldl_map, List.sum_eq_foldl]

namespace Node

/-- Both walks over a tree end after as many turns as the tree has nodes, whichever pending node is
taken, so that a stack is one way among others, and they end with the depth and with the number of
nodes.  These are what a recursion over the tree makes of the children, and a tree has no more
levels than nodes. -/
theorem walks_end_with_recursive_measures :
    (∀ node : Node,
      EndsAfter (fun deepest (item : Node × Nat) => max deepest item.2) childrenWithLevel
        node.nodeCount 0 [(node, 1)] node.depth ∧
      EndsAfter (fun count (_ : Node) => count + 1) children
        node.nodeCount 0 [node] node.nodeCount ∧
      node.depth = 1 + largestDepth node.children ∧
      node.nodeCount = 1 + (node.children.map nodeCount).sum ∧
      node.depth ≤ node.nodeCount) ∧
    (∀ {α β : Type} (account : β → α → β) (below : α → List α) (result : β) (pending : List α)
      (item : α),
      Turn account below result (pending ++ [item])
        (account result item) (pending ++ below item)) ∧
    ∀ file : TreeFile, file.nodeCount = (file.roots.map nodeCount).sum := by
  refine ⟨?_, fun _ _ => turn_of_stack, TreeFile.nodeCount_eq_sum⟩
  intro node
  exact ⟨endsAfter_depth node, endsAfter_nodeCount node, depth_eq node, nodeCount_eq node,
    depth_le_nodeCount node⟩

end Node

end TreeGen
