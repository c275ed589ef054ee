import Mathlib.Data.List.Forall2
import TreeGen.Proofs.Document
import TreeGen.Proofs.Node.Preorder

/-!
# The notices of an expansion

Which nodes are skipped can be read off the tree and the library alone: those whose own template
cannot be had while the templates of all their proper ancestors are present.  An expansion that
succeeds raises one notice for each of them, in pre-order, and no other.  Templates that leave out
the text of the children make no difference, and neither do notices that were collected before.
-/

namespace TreeGen.Template

open ExpansionM
open Node (preorderAll preorderAll_cons mem_ancestors_of_mem_preorderAll)

/-! ## The skipped nodes of a tree -/

/-- Whether the node is the topmost one on its path whose template cannot be had. -/
def isTopmostUnresolved (templates : Library) (placed : PlacedNode) : Bool :=
  !templates.resolves placed.node && placed.ancestors.all templates.resolves

/-- The topmost unresolved nodes of trees that stand below the given ancestors, in pre-order. -/
def topmostUnresolved
    (templates : Library) (ancestors : List Node) (nodes : List Node) : List PlacedNode :=
  (preorderAll ancestors nodes).filter (isTopmostUnresolved templates)

/-- The notice says that the node is skipped, and why and where. -/
inductive Reports (templates : Library) (placed : PlacedNode) (notice : Notice) : Prop where
  | unregistered
      (found : templates.find placed.node.classification = .unregistered)
      (severity : notice.severity = .info)
      (topic : notice.topic = .unregistered)
      (message : notice.message =
        "no template registered for classification '" ++ placed.node.classification
          ++ "', node skipped")
      (location : notice.location = some placed.location)
  | missing {resource : String}
      (found : templates.find placed.node.classification = .missing resource)
      (severity : notice.severity = .warning)
      (topic : notice.topic = .missingTemplate)
      (message : notice.message =
        "template '" ++ resource ++ "' for classification '" ++ placed.node.classification
          ++ "' could not be loaded, node skipped")
      (location : notice.location = some placed.location)

theorem reports_of_due
    {templates : Library} {placed : PlacedNode} {notice : Notice}
    (h : templates.dueNotice? placed.node.classification = some notice) :
    Reports templates placed (notice.located placed.location) := by
  rw [Library.dueNotice?] at h
  cases hfind : templates.find placed.node.classification with
  | present template =>
      rw [hfind] at h
      cases h
  | unregistered =>
      rw [hfind] at h
      cases h
      exact .unregistered hfind rfl rfl rfl rfl
  | missing resource =>
      rw [hfind] at h
      cases h
      exact .missing hfind rfl rfl rfl rfl

section

variable {templates : Library} {ancestors rest : List Node} {node : Node}

theorem topmostUnresolved_nil (templates : Library) (ancestors : List Node) :
    topmostUnresolved templates ancestors [] = [] := by
  rw [topmostUnresolved, preorderAll, List.filter_nil]

theorem topmostUnresolved_cons_of_resolves (h : templates.resolves node) :
    topmostUnresolved templates ancestors (node :: rest) =
      topmostUnresolved templates (ancestors ++ [node]) node.children
        ++ topmostUnresolved templates ancestors rest := by
  have hnode : ¬ isTopmostUnresolved templates ⟨ancestors, node⟩ := by
    simp [isTopmostUnresolved, h]
  simp only [topmostUnresolved]
  rw [preorderAll_cons, List.filter_append, List.filter_cons_of_neg hnode]

/-- Nothing below a node that does not resolve is a topmost unresolved node. -/
theorem topmostUnresolved_eq_nil_of_mem
    {ancestor : Node} (hmem : ancestor ∈ ancestors) (h : ¬ templates.resolves ancestor)
    (nodes : List Node) :
    topmostUnresolved templates ancestors nodes = [] := by
  rw [topmostUnresolved, List.filter_eq_nil_iff]
  intro placed hplaced htopmost
  have hbelow := mem_ancestors_of_mem_preorderAll nodes ancestors placed hplaced ancestor hmem
  rw [isTopmostUnresolved, Bool.and_eq_true, List.all_eq_true] at htopmost
  exact h (htopmost.2 ancestor hbelow)

theorem topmostUnresolved_cons_of_not_resolves
    (hancestors : ∀ ancestor ∈ ancestors, templates.resolves ancestor)
    (h : ¬ templates.resolves node) :
    topmostUnresolved templates ancestors (node :: rest) =
      ⟨ancestors, node⟩ :: topmostUnresolved templates ancestors rest := by
  have hnode : isTopmostUnresolved templates ⟨ancestors, node⟩ := by
    simpa [isTopmostUnresolved, h] using hancestors
  have hbelow := topmostUnresolved_eq_nil_of_mem
    (List.mem_append_right ancestors (List.mem_singleton_self node)) h node.children
  simp only [topmostUnresolved] at hbelow ⊢
  rw [preorderAll_cons, List.filter_append, List.filter_cons_of_pos hnode, hbelow]
  rfl

end

/-! ## The notices that are raised -/

/-- Nodes that expand below ancestors with templates raise one notice for each topmost unresolved
one, in pre-order. -/
theorem Expands.reports
    {templates : Library} {limit level : Nat} {above text : String} {nodes : List Node}
    {raised : Notices}
    (h : Expands templates limit above level nodes text raised) (ancestors : List Node)
    (habove : above = locationPrefix ancestors)
    (hancestors : ∀ ancestor ∈ ancestors, templates.resolves ancestor) :
    List.Forall₂ (Reports templates) (topmostUnresolved templates ancestors nodes) raised := by
  induction h generalizing ancestors with
  | nil =>
      rw [topmostUnresolved_nil]
      exact .nil
  | @skipped above level node rest text notice raised within due _ ih =>
      have hnode : ¬ templates.resolves node := not_resolves_of_due due
      have hreports :
          Reports templates ⟨ancestors, node⟩ (notice.located (above ++ node.name)) := by
        rw [habove, ← PlacedNode.location_eq ⟨ancestors, node⟩]
        exact reports_of_due due
      rw [topmostUnresolved_cons_of_not_resolves hancestors hnode]
      exact .cons hreports (ih ancestors habove hancestors)
  | @filled above level node rest template inner text below raised within found _ _ ihInside ih =>
      have hnode : templates.resolves node := resolves_iff.mpr ⟨template, found⟩
      have hbelow := resolves_of_mem_append_singleton hancestors hnode
      rw [topmostUnresolved_cons_of_resolves hnode]
      apply List.rel_append
      · apply ihInside (ancestors ++ [node])
        · rw [locationPrefix_append_singleton, habove]
        · exact hbelow
      · exact ih ancestors habove hancestors

/-- An expansion that succeeds keeps the notices collected before and adds one for each topmost
unresolved node, in pre-order.  Neither these nor the text depend on what was collected before, and
the document of the roots counts as many skipped subtrees as there are such nodes. -/
theorem notices_of_expandAll
    (expander : Expander) (roots : List Node) (earlier collected : Notices) (text : String)
    (h : (expander.expandAll roots).run.run earlier = (.ok text, collected)) :
    ∃ raised, collected = earlier ++ raised ∧
      List.Forall₂ (Reports expander.templates)
        (topmostUnresolved expander.templates [] roots) raised ∧
      (∀ others, (expander.expandAll roots).run.run others = (.ok text, others ++ raised)) ∧
      ∃ document, Document.ofRoots expander roots = .ok document ∧
        document.content = Document.wrap text ∧ document.notices = raised ∧
        document.skippedCount = (topmostUnresolved expander.templates [] roots).length := by
  rw [Expander.expandAll_eq_expandEach] at h ⊢
  obtain ⟨raised, hgives, hcollected⟩ := Expander.gives_expandEach_of_run h
  have hexpands := (Expander.gives_expandEach_ok_iff text raised).mp hgives
  have hreports := hexpands.reports [] rfl (List.forall_mem_nil _)
  have hdocument := Document.ofRoots_of_expands hexpands
  exact ⟨raised, hcollected, hreports, hgives, _, hdocument, rfl, rfl, hreports.length_eq.symm⟩

/-! ## Trees with gaps -/

/-- A library in which one template has a place for the children, one has none, and one resource has
no text. -/
def patchyLibrary : Library :=
  ⟨.ofList [("Block", "block.txt"), ("Class", "class.txt"), ("Property", "property.txt")],
    .ofList [("block.txt", some "block \x7bName\x7d [\x7bChildren\x7d]"),
      ("class.txt", some "class \x7bName\x7d;")]⟩

/-- A skipped root with a child, and a root below which a nameless node is skipped and one more
under a template without a place for it. -/
def patchyRoots : List Node :=
  [⟨"E", "Enum", none, [.leaf "x" "Property"]⟩,
    ⟨"A", "Block", none, [.leaf "" "Property", ⟨"B", "Class", none, [.leaf "c" "Enum"]⟩]⟩]

def patchyNotices : Notices :=
  [(Notice.unregistered "Enum").located "E",
    (Notice.missing "Property" "property.txt").located "A.",
    (Notice.unregistered "Enum").located "A.B.c"]

theorem run_patchyRoots :
    (Expander.expandAll ⟨patchyLibrary, 3⟩ patchyRoots).run.run [] =
      (.ok "block A [class B;]", patchyNotices) := by
  with_unfolding_all rfl

theorem notices_of_patchyRoots :
    ∃ document, Document.ofRoots ⟨patchyLibrary, 3⟩ patchyRoots = .ok document ∧
      document.content = Document.wrap "block A [class B;]" ∧
      document.notices = patchyNotices ∧ document.skippedCount = 3 := by
  obtain ⟨raised, hcollected, -, -, document, hdocument, hcontent, hnotices, hcount⟩ :=
    notices_of_expandAll _ _ _ _ _ run_patchyRoots
  refine ⟨document, hdocument, hcontent, ?_, hcount⟩
  rw [hnotices, hcollected, List.nil_append]

end TreeGen.Template
