import TreeGen.Node.Measure
import TreeGen.TypeTree.Nodes

/-!
# The levels of a tree that was read

Every node that is read lies on a level within the limit, so a tree that was read from a place in
the document is no higher than the levels that are left from there on.
-/

namespace TreeGen.TypeTree

open Node (height heightAll)

/-! ## What it takes to read a node -/

theorem readNode_eq_ok_iff (limit : Nat) (path : NodePath) (json : Json) (node : Node) :
    readNode limit path json = .ok node ↔
      path.length ≤ limit ∧ ∃ fields children, ownFields json = .ok fields ∧
        readNodes limit path 0 fields.children = .ok children ∧
        node = ⟨fields.name, fields.classification, fields.declaredType, children⟩ := by
  rw [readNode]
  by_cases hpath : path.length > limit
  · rw [if_pos hpath]
    constructor
    · intro h
      simp at h
    · rintro ⟨hle, -⟩
      omega
  · rw [if_neg hpath]
    constructor
    · intro h
      split at h
      · simp at h
      · rename_i fields hfields
        split at h
        · simp at h
        · rename_i children hchildren
          simp only [Except.ok.injEq] at h
          exact ⟨Nat.not_lt.mp hpath, fields, children, hfields, hchildren, h.symm⟩
    · rintro ⟨-, fields, children, hfields, hchildren, rfl⟩
      split
      · rename_i complaint hcomplaint
        rw [hfields] at hcomplaint
        cases hcomplaint
      · rename_i fields' hfields'
        rw [hfields] at hfields'
        cases hfields'
        rw [hchildren]

theorem readNodes_nil (limit : Nat) (path : NodePath) (index : Nat) :
    readNodes limit path index [] = .ok [] := by
  rw [readNodes]

theorem readNodes_cons_eq_ok_iff
    (limit : Nat) (path : NodePath) (index : Nat) (item : Json) (items : List Json)
    (nodes : List Node) :
    readNodes limit path index (item :: items) = .ok nodes ↔
      ∃ node others, readNode limit (path ++ [index]) item = .ok node ∧
        readNodes limit path (index + 1) items = .ok others ∧ nodes = node :: others := by
  rw [readNodes]
  constructor
  · intro h
    split at h
    · simp at h
    · rename_i node hnode
      split at h
      · simp at h
      · rename_i others hothers
        simp only [Except.ok.injEq] at h
        exact ⟨node, others, hnode, hothers, h.symm⟩
  · rintro ⟨node, others, hnode, hothers, rfl⟩
    rw [hnode, hothers]

/-! ## Properties that children hand on to their parent -/

/-- `P` holds of a node at a place and of the value it was read from once `Q` holds of its children,
and `Q` holds of several nodes once `P` holds of each of them. -/
structure Hereditary (limit : Nat) (P : NodePath → Json → Node → Prop)
    (Q : NodePath → List Json → List Node → Prop) : Prop where
  node : ∀ path json fields children, path.length ≤ limit → ownFields json = .ok fields →
    Q path fields.children children →
      P path json ⟨fields.name, fields.classification, fields.declaredType, children⟩
  nil : ∀ path, Q path [] []
  cons : ∀ path index item items node nodes, P (path ++ [index]) item node →
    Q path items nodes → Q path (item :: items) (node :: nodes)

namespace Hereditary

variable {limit : Nat} {P : NodePath → Json → Node → Prop}
  {Q : NodePath → List Json → List Node → Prop}

mutual

theorem of_readNode (hereditary : Hereditary limit P Q) :
    ∀ (node : Node) (path : NodePath) (json : Json),
      readNode limit path json = .ok node → P path json node
  | ⟨name, classification, declaredType, children⟩, path, json, h => by
    obtain ⟨hpath, fields, children', hfields, hchildren, heq⟩ :=
      (readNode_eq_ok_iff limit path json _).mp h
    obtain ⟨rfl, rfl, rfl, rfl⟩ := Node.mk.inj heq
    apply hereditary.node path json fields children hpath hfields
    exact hereditary.of_readNodes children path 0 fields.children hchildren

/-- What children hand on to their parent holds of all nodes that were read. -/
theorem of_readNodes (hereditary : Hereditary limit P Q) :
    ∀ (nodes : List Node) (path : NodePath) (index : Nat) (items : List Json),
      readNodes limit path index items = .ok nodes → Q path items nodes
  | nodes, path, index, [], h => by
    rw [readNodes_nil, Except.ok.injEq] at h
    rw [← h]
    exact hereditary.nil path
  | [], path, index, item :: items, h => by
    obtain ⟨node, others, -, -, heq⟩ :=
      (readNodes_cons_eq_ok_iff limit path index item items _).mp h
    exact absurd heq (List.cons_ne_nil node others).symm
  | node :: nodes, path, index, item :: items, h => by
    obtain ⟨node', others, hitem, hitems, heq⟩ :=
      (readNodes_cons_eq_ok_iff limit path index item items _).mp h
    obtain ⟨rfl, rfl⟩ := List.cons.inj heq
    apply hereditary.cons path index item items
    · exact hereditary.of_readNode node (path ++ [index]) item hitem
    · exact hereditary.of_readNodes nodes path (index + 1) items hitems

end

end Hereditary

/-! ## The height of what was read -/

/-- Children lie one level below their parent, and the length of a path is the level. -/
theorem hereditary_height (limit : Nat) :
    Hereditary limit (fun path _ node => path.length + node.height ≤ limit + 1)
      (fun path _ nodes => path.length ≤ limit → path.length + heightAll nodes ≤ limit) where
  node path json fields children hpath _ hchildren := by
    have hbelow := hchildren hpath
    rw [height]
    omega
  nil path hpath := by
    rw [heightAll]
    exact hpath
  cons path index item items node nodes hnode hnodes hpath := by
    have hothers := hnodes hpath
    rw [List.length_append, List.length_singleton] at hnode
    rw [heightAll]
    omega

theorem heightAll_le_of_readNodes
    {limit : Nat} {items : List Json} {roots : List Node}
    (h : readNodes limit [] 0 items = .ok roots) :
    heightAll roots ≤ limit := by
  have hle := (hereditary_height limit).of_readNodes roots [] 0 items h (Nat.zero_le limit)
  rw [List.length_nil, Nat.zero_add] at hle
  exact hle

end TreeGen.TypeTree
