import TreeGen.Proofs.Document
import TreeGen.Proofs.Template.Skipped

/-!
# Trees without their skipped nodes

Removing every node whose template cannot be had, with everything below it, leaves a document as it
is.  Such a node expands to nothing, so its siblings and its parent do not notice that it is gone; a
node that has lost all its children is filled in just as if it had never had any.
-/

namespace TreeGen.Template

mutual

/-- The tree without the unresolved nodes below its root. -/
def pruned (templates : Library) : Node → Node
  | ⟨name, classification, declaredType, children⟩ =>
    ⟨name, classification, declaredType, prunedAll templates children⟩

def prunedAll (templates : Library) : List Node → List Node
  | [] => []
  | node :: rest =>
    if templates.resolves node then pruned templates node :: prunedAll templates rest
    else prunedAll templates rest

end

theorem pruned_eq (templates : Library) (node : Node) :
    pruned templates node = { node with children := prunedAll templates node.children } := by
  obtain ⟨name, classification, declaredType, children⟩ := node
  rw [pruned]

/-- Trees that expand do so without their unresolved nodes, to the same text and silently. -/
theorem Expands.without_unresolved
    {templates : Library} {limit level : Nat} {above text : String} {nodes : List Node}
    {raised : Notices}
    (h : Expands templates limit above level nodes text raised) :
    Expands templates limit above level (prunedAll templates nodes) text [] := by
  induction h with
  | nil =>
      rw [prunedAll]
      exact .nil
  | @skipped above level node rest text notice raised within due _ ih =>
      rw [prunedAll, if_neg (not_resolves_of_due due)]
      exact ih
  | @filled above level node rest template inner text below raised within found _ _ ihInside ih =>
      have hnode : templates.resolves node := resolves_iff.mpr ⟨template, found⟩
      let kept : Node := { node with children := prunedAll templates node.children }
      have hkept : Expands templates limit above level (kept :: prunedAll templates rest)
          (fillFor kept template inner ++ text) ([] ++ []) :=
        .filled within found ihInside ih
      rw [prunedAll, if_pos hnode, pruned_eq]
      exact hkept

/-- Whenever there is a document, the trees without their unresolved nodes have one with the same
content and without a notice. -/
theorem ofRoots_prunedAll
    (expander : Expander) (roots : List Node) (document : Document)
    (h : Document.ofRoots expander roots = .ok document) :
    ∃ again, Document.ofRoots expander (prunedAll expander.templates roots) = .ok again ∧
      again.content = document.content ∧ again.notices = [] := by
  obtain ⟨text, raised, hexpands, rfl⟩ := Document.ofRoots_eq_ok_iff.mp h
  exact ⟨_, Document.ofRoots_of_expands hexpands.without_unresolved, rfl, rfl⟩

theorem ofRoots_prunedAll_patchyRoots :
    prunedAll patchyLibrary patchyRoots =
        [⟨"A", "Block", none, [.leaf "B" "Class"]⟩] ∧
      ∃ again, Document.ofRoots ⟨patchyLibrary, 3⟩ [⟨"A", "Block", none, [.leaf "B" "Class"]⟩] =
          .ok again ∧
        again.content = Document.wrap "block A [class B;]" ∧ again.notices = [] := by
  have hpruned : prunedAll patchyLibrary patchyRoots =
      [⟨"A", "Block", none, [.leaf "B" "Class"]⟩] := by
    rfl
  have hdocument : Document.ofRoots ⟨patchyLibrary, 3⟩ patchyRoots =
      .ok ⟨Document.defaultName, Document.wrap "block A [class B;]", patchyNotices, 2⟩ := by
    rw [Document.ofRoots, run_patchyRoots]
    rfl
  refine ⟨hpruned, ?_⟩
  rw [← hpruned]
  exact ofRoots_prunedAll _ _ _ hdocument

end TreeGen.Template
