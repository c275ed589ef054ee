import TreeGen.Proofs.Json.Nesting.Exactness
import TreeGen.Proofs.Node.Printer
import TreeGen.Proofs.TypeTree.Field
import TreeGen.Proofs.TypeTree.Reading

/-!
# Type trees survive printing

The text of a tree, on one line or on many, reads back as the tree.  Three things have to fit
together: the JSON text gives back the value that was printed, the fields of a printed node are
found again, and the brackets of the text stay within what the nesting scan lets through.  A tree
takes two brackets for each level and one around its roots, and the scan allows for sixteen.

The limit of the scan is capped at the largest number of 64 bits.  A text has at least as many
characters as its value nests, so a text that fits into memory is never touched by the cap.
-/

namespace TreeGen.TypeTree

open Json (nesting nestingItems nestingMembers)
open Node (toJson toJsonAll height heightAll)

/-! ## The fields of a printed node -/

def printedFields : Node → List (Field × Json)
  | ⟨name, classification, declaredType, children⟩ =>
    [(.name, .string name), (.classification, .string classification)]
      ++ (declaredType.map fun type => (Field.type, Json.string type)).toList
      ++ [(.children, .array (toJsonAll children))]

theorem toJson_eq (node : Node) :
    node.toJson = .object ((printedFields node).map Field.member) := by
  obtain ⟨name, classification, declaredType, children⟩ := node
  cases declaredType <;> rw [toJson] <;> rfl

theorem nodup_printedFields (node : Node) : ((printedFields node).map Prod.fst).Nodup := by
  obtain ⟨name, classification, declaredType, children⟩ := node
  cases declaredType with
  | none => exact show [Field.name, .classification, .children].Nodup by decide
  | some type => exact show [Field.name, .classification, .type, .children].Nodup by decide

theorem ownFields_toJson
    (name classification : String) (declaredType : Option String) (children : List Node) :
    ownFields (toJson ⟨name, classification, declaredType, children⟩) =
      .ok ⟨name, classification, declaredType, toJsonAll children⟩ := by
  have hvalue := Field.value?_map_member
    (nodup_printedFields ⟨name, classification, declaredType, children⟩)
  rw [toJson_eq, ownFields, ownFieldsOfMembers]
  simp only [textField, textField?, childValues, hvalue]
  cases declaredType <;> rfl

mutual

/-- A printed node is read back where it has room for its levels. -/
theorem readNode_toJson {limit : Nat} :
    ∀ (node : Node) (path : NodePath),
      path.length + node.height ≤ limit + 1 → readNode limit path node.toJson = .ok node
  | ⟨name, classification, declaredType, children⟩, path, h => by
    rw [height] at h
    have hpath : path.length ≤ limit := by omega
    have hbelow : path.length + heightAll children ≤ limit := by omega
    have hchildren := readNodes_toJsonAll children path 0 hbelow
    rw [readNode_eq_ok_iff]
    exact ⟨hpath, _, children, ownFields_toJson _ _ _ _, hchildren, rfl⟩

theorem readNodes_toJsonAll {limit : Nat} :
    ∀ (nodes : List Node) (path : NodePath) (index : Nat),
      path.length + heightAll nodes ≤ limit →
        readNodes limit path index (toJsonAll nodes) = .ok nodes
  | [], path, index, _ => by
    rw [toJsonAll]
    exact readNodes_nil limit path index
  | node :: nodes, path, index, h => by
    rw [heightAll] at h
    have hlevel : (path ++ [index]).length + node.height ≤ limit + 1 := by
      rw [List.length_append, List.length_singleton]
      omega
    have hothers : path.length + heightAll nodes ≤ limit := by omega
    have hnode := readNode_toJson node (path ++ [index]) hlevel
    have hnodes := readNodes_toJsonAll nodes path (index + 1) hothers
    rw [toJsonAll, readNodes_cons_eq_ok_iff]
    exact ⟨node, nodes, hnode, hnodes, rfl⟩

end

/-! ## The brackets of a printed tree -/

/-- Printed roots are read back if their levels are within the limit and their brackets within the
cap. -/
theorem read_print_toJsonAll
    {layout : Json.Layout} (hlayout : layout.Blank) (filename : String) {limit : Nat}
    {roots : List Node} (hlimit : heightAll roots ≤ limit)
    (hcap : 2 * heightAll roots < largestLimit) :
    read ⟨filename, String.ofList (Json.print layout 0 (.array (toJsonAll roots)))⟩ limit =
      .ok roots := by
  have hread := Json.read_print hlayout (.array (toJsonAll roots))
    (Node.textualItems_toJsonAll roots)
  have hnesting : (Json.array (toJsonAll roots)).nesting ≤ bracketLimit limit := by
    rw [nesting, Node.nestingItems_toJsonAll, bracketLimit, Nat.le_min]
    omega
  rw [read_eq_ok_iff]
  refine ⟨Json.firstExcess?_eq_none_of_nesting_le hread hnesting, _, hread, ?_⟩
  apply readNodes_toJsonAll
  rw [List.length_nil, Nat.zero_add]
  exact hlimit

/-- A text that fits into memory has fewer brackets than the cap. -/
theorem lt_largestLimit_of_print
    {layout : Json.Layout} (hlayout : layout.Blank) {roots : List Node}
    (hsize : (String.ofList (Json.print layout 0 (.array (toJsonAll roots)))).utf8ByteSize ≤
      largestLimit) :
    2 * heightAll roots < largestLimit := by
  have hread := Json.read_print hlayout (.array (toJsonAll roots))
    (Node.textualItems_toJsonAll roots)
  have hnesting := Json.nesting_le_utf8ByteSize hread
  rw [nesting, Node.nestingItems_toJsonAll] at hnesting
  omega

/-! ## The brackets of a tree that was read -/

theorem nestingItems_children_le
    {json : Json} {fields : OwnFields} (h : ownFields json = .ok fields) :
    1 ≤ json.nesting ∧
      (fields.children = [] ∨ nestingItems fields.children + 2 ≤ json.nesting) := by
  cases json with
  | object members =>
      rw [nesting]
      refine ⟨by omega, ?_⟩
      have hchildren := childValues_of_ownFieldsOfMembers h
      unfold childValues at hchildren
      split at hchildren
      · left
        simpa using hchildren.symm
      · left
        simpa using hchildren.symm
      · rename_i items hvalue
        right
        obtain rfl : items = fields.children := by simpa using hchildren
        obtain ⟨key, hmem⟩ := Field.mem_of_value?_eq_some hvalue
        have hle := Json.nesting_le_nestingMembers hmem
        rw [nesting] at hle
        omega
      · simp at hchildren
  | _ => simp [ownFields] at h

/-- A node that was read has two brackets for each level, but for the array of no children. -/
theorem hereditary_nesting (limit : Nat) :
    Hereditary limit (fun _ json node => 2 * node.height ≤ json.nesting + 1)
      (fun _ items nodes => 2 * heightAll nodes ≤ nestingItems items + 1) where
  node path json fields children _ hfields hchildren := by
    obtain ⟨hpos, hnone | hsome⟩ := nestingItems_children_le hfields
    · rw [hnone, nestingItems] at hchildren
      rw [height]
      omega
    · rw [height]
      omega
  nil path := by
    rw [heightAll]
    exact Nat.zero_le _
  cons path index item items node nodes hnode hnodes := by
    rw [heightAll, nestingItems]
    omega

/-- The levels of a tree that was read take fewer brackets than the cap. -/
theorem lt_largestLimit_of_read_eq_ok
    {source : Source} {limit : Nat} {roots : List Node} (h : read source limit = .ok roots) :
    2 * heightAll roots < largestLimit := by
  obtain ⟨hscan, items, hitems, hroots⟩ := (read_eq_ok_iff source limit roots).mp h
  have hnesting := Json.nesting_le_of_firstExcess?_eq_none hscan hitems
  have hheight := (hereditary_nesting limit).of_readNodes roots [] 0 items hroots
  have hcap : bracketLimit limit ≤ largestLimit := Nat.min_le_right _ _
  have hodd : largestLimit = 2 * 9223372036854775807 + 1 := rfl
  rw [nesting] at hnesting
  omega

/-! ## Printing and reading back -/

/-- Roots whose levels are within the limit are read back from their compact text and from their
dump, and so are all roots that were read from any text.  Where the limit allows for more brackets
than the cap, the size of the text has to be a number of 64 bits, as that of every text in memory
is. -/
theorem read_print_roots (limit : Nat) :
    (∀ roots, (∀ root ∈ roots, root.depth ≤ limit) →
      ∀ text, text = (Json.array (toJsonAll roots)).compact ∨ text = Node.dump roots →
        2 * limit < largestLimit ∨ text.utf8ByteSize ≤ largestLimit →
          ∀ filename, read ⟨filename, text⟩ limit = .ok roots) ∧
    ∀ source roots, read source limit = .ok roots →
      ∀ filename, ∃ again, read ⟨filename, Node.dump roots⟩ limit = .ok again ∧
        again = roots ∧ Node.dump again = Node.dump roots := by
  constructor
  · intro roots hdepth text htext hsize filename
    have hlimit : heightAll roots ≤ limit := Node.heightAll_le_iff.mpr hdepth
    have hprinted : ∃ layout : Json.Layout, layout.Blank ∧
        text = String.ofList (Json.print layout 0 (.array (toJsonAll roots))) := by
      rcases htext with rfl | rfl
      · exact ⟨.compact, Json.blank_compact, rfl⟩
      · exact ⟨.indented, Json.blank_indented, rfl⟩
    obtain ⟨layout, hlayout, rfl⟩ := hprinted
    apply read_print_toJsonAll hlayout filename hlimit
    rcases hsize with hsize | hsize
    · omega
    · exact lt_largestLimit_of_print hlayout hsize
  · intro source roots hread filename
    have hlimit := heightAll_le_of_read_eq_ok hread
    have hcap := lt_largestLimit_of_read_eq_ok hread
    have hagain : read ⟨filename, Node.dump roots⟩ limit = .ok roots :=
      read_print_toJsonAll Json.blank_indented filename hlimit hcap
    exact ⟨roots, hagain, rfl, rfl⟩

/-- A tree of two levels whose texts hold quotes, backslashes, brackets, comment marks, a control
character and a character of two bytes, with an empty type and without one. -/
theorem read_print_hostile :
    (∀ root ∈ [Node.mk "\"[\x7b" "\\/*" (some "") [.leaf "é'\x01" "//"]], root.depth ≤ 2) ∧
      read ⟨"context.json",
        Node.dump [⟨"\"[\x7b", "\\/*", some "", [.leaf "é'\x01" "//"]⟩]⟩ 2 =
          .ok [⟨"\"[\x7b", "\\/*", some "", [.leaf "é'\x01" "//"]⟩] := by
  have hdepth :
      ∀ root ∈ [Node.mk "\"[\x7b" "\\/*" (some "") [.leaf "é'\x01" "//"]], root.depth ≤ 2 :=
    Node.heightAll_le_iff.mp (by decide)
  refine ⟨hdepth, ?_⟩
  exact (read_print_roots 2).1 _ hdepth _ (.inr rfl) (.inl (by decide)) "context.json"

end TreeGen.TypeTree
