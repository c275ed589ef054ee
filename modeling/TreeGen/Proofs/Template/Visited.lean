import TreeGen.Proofs.Template.DepthLimit
import TreeGen.Proofs.Template.Loading

/-!
# What an expansion depends on

An expansion looks up the classifications of the nodes that it visits and reads nothing else of the
library.  Of a node that it skips it uses the name and the classification, so neither the type of
such a node nor anything below it can be told from the outcome; and a type that is empty counts as
absent.  Two runs that agree in what is left give the same text or the same error, and the same
notices.

Which nodes are visited depends on the library.  It is enough to ask for the nodes that one of the
two libraries visits in one of the two trees: as long as the runs agree they visit the same nodes.
-/

namespace TreeGen.Template

open ExpansionM
open Node (preorder preorderAll preorderAll_singleton mem_preorderAll_cons_iff)

/-! ## Trees that cannot be told apart -/

/-- An expansion reaches the node: the templates of all its proper ancestors are present. -/
def Library.Visits (templates : Library) (placed : PlacedNode) : Prop :=
  ∀ ancestor ∈ placed.ancestors, templates.resolves ancestor

instance (templates : Library) (placed : PlacedNode) : Decidable (templates.Visits placed) :=
  inferInstanceAs (Decidable (∀ ancestor ∈ placed.ancestors, templates.resolves ancestor))

/-- Two declared types are the same, or one is absent and the other empty. -/
inductive SameType : Option String → Option String → Prop where
  | refl (type? : Option String) : SameType type? type?
  | emptied : SameType none (some "")
  | dropped : SameType (some "") none

/-- Two trees differ at most in whether a type is absent or empty, in the types of nodes that are
skipped, and below such nodes. -/
inductive LooksAlike (templates : Library) : Node → Node → Prop where
  | skipped {node node' : Node}
      (name : node'.name = node.name)
      (classification : node'.classification = node.classification)
      (unresolved : ¬ templates.resolves node) :
      LooksAlike templates node node'
  | visited {node node' : Node}
      (name : node'.name = node.name)
      (classification : node'.classification = node.classification)
      (type : SameType node.declaredType node'.declaredType)
      (children : List.Forall₂ (LooksAlike templates) node.children node'.children) :
      LooksAlike templates node node'

/-- Two libraries give the same answer for every node, among these or below them, that the first one
visits when they stand below the given ancestors. -/
def AgreeOnVisited (templates templates' : Library) (ancestors nodes : List Node) : Prop :=
  ∀ placed ∈ preorderAll ancestors nodes, templates.Visits placed →
    templates'.find placed.node.classification = templates.find placed.node.classification

section

variable {templates templates' : Library} {node node' : Node} {ancestors rest : List Node}

theorem SameType.typeName?_eq (h : SameType node.declaredType node'.declaredType) :
    node'.typeName? = node.typeName? := by
  rw [Node.typeName?, Node.typeName?]
  generalize node.declaredType = type?, node'.declaredType = type?' at h
  cases h <;> rfl

theorem LooksAlike.name_eq (h : LooksAlike templates node node') : node'.name = node.name := by
  cases h <;> assumption

theorem LooksAlike.classification_eq (h : LooksAlike templates node node') :
    node'.classification = node.classification := by
  cases h <;> assumption

theorem LooksAlike.of_resolves
    (h : LooksAlike templates node node') (hnode : templates.resolves node) :
    SameType node.declaredType node'.declaredType ∧
      List.Forall₂ (LooksAlike templates) node.children node'.children := by
  cases h with
  | skipped _ _ unresolved => exact absurd hnode unresolved
  | visited _ _ type children => exact ⟨type, children⟩

theorem fillFor_eq (hname : node'.name = node.name) (htype : node'.typeName? = node.typeName?)
    (template inner : String) : fillFor node' template inner = fillFor node template inner := by
  rw [fillFor, fillFor, hname, htype]

mutual

theorem LooksAlike.refl (templates : Library) : ∀ node : Node, LooksAlike templates node node
  | ⟨_, _, declaredType, children⟩ =>
    .visited rfl rfl (.refl declaredType) (LooksAlike.refl_all templates children)

theorem LooksAlike.refl_all (templates : Library) :
    ∀ nodes : List Node, List.Forall₂ (LooksAlike templates) nodes nodes
  | [] => .nil
  | node :: rest => .cons (LooksAlike.refl templates node) (LooksAlike.refl_all templates rest)

end

theorem dueNotice?_eq_of_find_eq {classification : String}
    (h : templates'.find classification = templates.find classification) :
    templates'.dueNotice? classification = templates.dueNotice? classification := by
  rw [Library.dueNotice?, Library.dueNotice?, h]

/-! ## Agreement on what is visited -/

theorem AgreeOnVisited.find_eq
    (h : AgreeOnVisited templates templates' ancestors (node :: rest))
    (hancestors : ∀ ancestor ∈ ancestors, templates.resolves ancestor) :
    templates'.find node.classification = templates.find node.classification :=
  h ⟨ancestors, node⟩ (mem_preorderAll_cons_iff.mpr (.inl rfl)) hancestors

theorem AgreeOnVisited.below (h : AgreeOnVisited templates templates' ancestors (node :: rest)) :
    AgreeOnVisited templates templates' (ancestors ++ [node]) node.children := by
  intro placed hplaced
  exact h placed (mem_preorderAll_cons_iff.mpr (.inr (.inl hplaced)))

theorem AgreeOnVisited.tail (h : AgreeOnVisited templates templates' ancestors (node :: rest)) :
    AgreeOnVisited templates templates' ancestors rest := by
  intro placed hplaced
  exact h placed (mem_preorderAll_cons_iff.mpr (.inr (.inr hplaced)))

theorem AgreeOnVisited.head (h : AgreeOnVisited templates templates' ancestors (node :: rest)) :
    AgreeOnVisited templates templates' ancestors [node] := by
  intro placed hplaced
  apply h placed
  rw [preorderAll]
  rw [preorderAll_singleton] at hplaced
  exact List.mem_append_left _ hplaced

end

/-! ## Two runs side by side -/

section

variable {templates templates' : Library} {limit level : Nat} {above text location : String}
  {nodes nodes' : List Node} {raised : Notices}

/-- Trees that expand with one library do so, to the same text and with the same notices, with
another one that agrees on what is visited, also if they are changed where it does not show. -/
theorem Expands.of_looksAlike
    (h : Expands templates limit above level nodes text raised) (ancestors : List Node)
    (hancestors : ∀ ancestor ∈ ancestors, templates.resolves ancestor)
    (halike : List.Forall₂ (LooksAlike templates) nodes nodes')
    (hagree : AgreeOnVisited templates templates' ancestors nodes) :
    Expands templates' limit above level nodes' text raised := by
  induction h generalizing ancestors nodes' with
  | nil =>
      cases halike
      exact .nil
  | @skipped above level node rest text notice raised within due _ ih =>
      cases halike with
      | @cons _ node' _ rest' hnode hrest =>
          have hdue : templates'.dueNotice? node'.classification = some notice := by
            rw [hnode.classification_eq,
              dueNotice?_eq_of_find_eq (hagree.find_eq hancestors), due]
          rw [← hnode.name_eq]
          exact .skipped within hdue (ih ancestors hancestors hrest hagree.tail)
  | @filled above level node rest template inner text below raised within found _ _ ihInside ih =>
      cases halike with
      | @cons _ node' _ rest' hnode hrest =>
          have hresolves : templates.resolves node := resolves_iff.mpr ⟨template, found⟩
          obtain ⟨htype, hchildren⟩ := hnode.of_resolves hresolves
          have hfound : templates'.find node'.classification = .present template := by
            rw [hnode.classification_eq, hagree.find_eq hancestors, found]
          have hinside := ihInside (ancestors ++ [node])
            (resolves_of_mem_append_singleton hancestors hresolves) hchildren hagree.below
          rw [← hnode.name_eq] at hinside
          rw [← fillFor_eq hnode.name_eq htype.typeName?_eq]
          exact .filled within hfound hinside (ih ancestors hancestors hrest hagree.tail)

/-- Trees that fail with one library do so at the same place, after the same notices, with another
one that agrees on what is visited, also if they are changed where it does not show. -/
theorem Fails.of_looksAlike
    (h : Fails templates limit above level nodes location raised) (ancestors : List Node)
    (hancestors : ∀ ancestor ∈ ancestors, templates.resolves ancestor)
    (halike : List.Forall₂ (LooksAlike templates) nodes nodes')
    (hagree : AgreeOnVisited templates templates' ancestors nodes) :
    Fails templates' limit above level nodes' location raised := by
  induction h generalizing ancestors nodes' with
  | @here above level node rest beyond =>
      cases halike with
      | cons hnode hrest =>
          rw [← hnode.name_eq]
          exact .here beyond
  | @inside above level node rest template location raised within found _ ih =>
      cases halike with
      | @cons _ node' _ rest' hnode hrest =>
          have hresolves : templates.resolves node := resolves_iff.mpr ⟨template, found⟩
          have hfound : templates'.find node'.classification = .present template := by
            rw [hnode.classification_eq, hagree.find_eq hancestors, found]
          have hinside := ih (ancestors ++ [node])
            (resolves_of_mem_append_singleton hancestors hresolves)
            (hnode.of_resolves hresolves).2 hagree.below
          rw [← hnode.name_eq] at hinside
          exact .inside within hfound hinside
  | @behind above level node rest text location raised raised' first _ ih =>
      cases halike with
      | cons hnode hrest =>
          have hfirst := first.of_looksAlike ancestors hancestors (.cons hnode .nil) hagree.head
          exact .behind hfirst (ih ancestors hancestors hrest hagree.tail)

end

section

variable {templates templates' : Library} {nodes nodes' : List Node} (limit : Nat)
  (halike : List.Forall₂ (LooksAlike templates) nodes nodes')
  (hagree : AgreeOnVisited templates templates' [] nodes)

include halike hagree

theorem exists_gives_of_looksAlike :
    ∃ result raised,
      Gives (Expander.expandEach ⟨templates, limit⟩ "" 1 nodes) result raised ∧
        Gives (Expander.expandEach ⟨templates', limit⟩ "" 1 nodes') result raised := by
  have hnone := List.forall_mem_nil fun ancestor => templates.resolves ancestor = true
  rcases Expander.gives_expandEach_cases ⟨templates, limit⟩ "" 1 nodes with
    ⟨text, raised, hgives, hexpands⟩ | ⟨location, raised, hgives, hfails⟩
  · have hgives' : Gives (Expander.expandEach ⟨templates', limit⟩ "" 1 nodes') (.ok text) raised :=
      Expander.gives_expandEach_of_expands (hexpands.of_looksAlike [] hnone halike hagree)
    exact ⟨_, raised, hgives, hgives'⟩
  · have hgives' : Gives (Expander.expandEach ⟨templates', limit⟩ "" 1 nodes')
        (.error (.tooDeep location limit)) raised :=
      Expander.gives_expandEach_of_fails (hfails.of_looksAlike [] hnone halike hagree)
    exact ⟨_, raised, hgives, hgives'⟩

/-- The document shows no more than the expansion does. -/
theorem ofRoots_of_looksAlike :
    Document.ofRoots ⟨templates', limit⟩ nodes' = Document.ofRoots ⟨templates, limit⟩ nodes := by
  obtain ⟨result, raised, hgives, hgives'⟩ := exists_gives_of_looksAlike limit halike hagree
  rw [Document.ofRoots, Document.ofRoots, Expander.expandAll_eq_expandEach,
    Expander.expandAll_eq_expandEach, hgives [], hgives' [], halike.length_eq]

end

theorem run_expand_of_looksAlike
    {templates templates' : Library} {node node' : Node} (limit : Nat)
    (halike : LooksAlike templates node node')
    (hagree : AgreeOnVisited templates templates' [] [node]) (earlier : Notices) :
    (Expander.expand ⟨templates', limit⟩ node').run.run earlier =
      (Expander.expand ⟨templates, limit⟩ node).run.run earlier := by
  obtain ⟨result, raised, hgives, hgives'⟩ :=
    exists_gives_of_looksAlike limit (.cons halike .nil) hagree
  rw [Expander.expand_eq_expandEach, Expander.expand_eq_expandEach, hgives earlier,
    hgives' earlier]

/-! ## Changes that do not show -/

/-- Expanding a tree depends on nothing but what it visits.  A second tree may differ in whether a
type is absent or empty, in the types of skipped nodes and below such nodes, and a second library in
everything but its answers for the classifications of visited nodes: expanding the second tree with
the second library gives the same text or the same error, and the same notices.  In particular,
removing, registering and overriding classifications that no visited node has changes nothing. -/
theorem expand_depends_on_visited (limit : Nat) (node : Node) (earlier : Notices) :
    (∀ templates templates' node',
      LooksAlike templates node node' →
      (∀ placed ∈ preorder [] node, templates.Visits placed →
        templates'.find placed.node.classification =
          templates.find placed.node.classification) →
      (Expander.expand ⟨templates', limit⟩ node').run.run earlier =
        (Expander.expand ⟨templates, limit⟩ node).run.run earlier) ∧
    ∀ (source : String → Option String) (registry : Registry) (keep : String → Bool)
      (pairs : List (String × String)),
      (∀ placed ∈ preorder [] node, (Library.ofSource source registry).Visits placed →
        keep placed.node.classification ∧
          placed.node.classification ∉ Entries.keys pairs) →
      (Expander.expand ⟨.ofSource source ((registry.filterKeys keep).insertMany pairs), limit⟩
          node).run.run earlier =
        (Expander.expand ⟨.ofSource source registry, limit⟩ node).run.run earlier := by
  constructor
  · intro templates templates' node' halike hagree
    rw [← preorderAll_singleton] at hagree
    exact run_expand_of_looksAlike limit halike hagree earlier
  · intro source registry keep pairs hunused
    apply run_expand_of_looksAlike limit (LooksAlike.refl _ node)
    intro placed hplaced hvisited
    rw [preorderAll_singleton] at hplaced
    obtain ⟨hkeep, hpairs⟩ := hunused placed hplaced hvisited
    have hresource : Registry.resource? ((registry.filterKeys keep).insertMany pairs)
        placed.node.classification = registry.resource? placed.node.classification :=
      (Table.get?_insertMany_of_not_mem hpairs).trans (Table.get?_filterKeys_of_keep hkeep)
    rw [find_ofSource, find_ofSource, hresource]

/-! ## Two runs that stop at the same node -/

/-- The patchy library with one more classification, and with the resource of another one moved. -/
def widerLibrary : Library :=
  ⟨.ofList [("Field", "class.txt"), ("Class", "type.txt"), ("Block", "block.txt"),
      ("Property", "property.txt")],
    .ofList [("type.txt", some "class {Name};"), ("class.txt", some ""),
      ("block.txt", some "block {Name} [{Children}]")]⟩

/-- The second of the patchy roots with an empty type instead of none, and with a type and a child
at each of the nodes that are skipped. -/
def reworkedRoot : Node :=
  ⟨"A", "Block", some "",
    [⟨"", "Property", some "int", [.leaf "x" "Block"]⟩,
      ⟨"B", "Class", none, [⟨"c", "Enum", some "byte", [.leaf "y" "Field"]⟩]⟩]⟩

theorem looksAlike_reworkedRoot : LooksAlike patchyLibrary (patchyRoots[1]) reworkedRoot := by
  refine .visited rfl rfl .emptied (.cons (.skipped rfl rfl (by decide)) (.cons ?_ .nil))
  exact .visited rfl rfl (.refl none) (.cons (.skipped rfl rfl (by decide)) .nil)

/-- A registry with a classification that the reworked root has only below a skipped node. -/
def fieldRegistry : Registry :=
  .ofList [("Block", "type.tmpl"), ("Field", "field.tmpl"), ("Class", "type.tmpl")]

theorem expand_reworkedRoot :
    (Expander.expand ⟨widerLibrary, 2⟩ reworkedRoot).run.run [] =
        (.error (.tooDeep "A.B.c" 2),
          [(Notice.missing "Property" "property.txt").located "A."]) ∧
      (Expander.expand ⟨.ofSource sharedSource
          ((fieldRegistry.filterKeys (· ≠ "Field")).insertMany [("Struct", "enum.tmpl")]), 4⟩
          reworkedRoot).run.run [] =
        (Expander.expand ⟨.ofSource sharedSource fieldRegistry, 4⟩ reworkedRoot).run.run [] := by
  have hfirst : (Expander.expand ⟨patchyLibrary, 2⟩ (patchyRoots[1])).run.run [] =
      (.error (.tooDeep "A.B.c" 2),
        [(Notice.missing "Property" "property.txt").located "A."]) := by
    with_unfolding_all rfl
  obtain ⟨hsame, -⟩ := expand_depends_on_visited 2 (patchyRoots[1]) []
  obtain ⟨-, hunused⟩ := expand_depends_on_visited 4 reworkedRoot []
  constructor
  · rw [← hfirst]
    exact hsame patchyLibrary widerLibrary reworkedRoot looksAlike_reworkedRoot (by decide)
  · exact hunused sharedSource fieldRegistry (· ≠ "Field") [("Struct", "enum.tmpl")] (by decide)

end TreeGen.Template
