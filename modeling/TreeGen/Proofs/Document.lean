import TreeGen.Document
import TreeGen.Proofs.Node.Measure
import TreeGen.Proofs.Template.Expansion

/-!
# Documents of trees that expand

A document holds the text to which its roots expand and the notices that are raised meanwhile, so
there is one exactly when the roots expand.  The only thing in the way is a node below the deepest
level allowed: the levels above such a node and those of the trees together exceed the limit.  What
the templates are does not matter, since a missing one only hides the nodes below it.
-/

namespace TreeGen

open Node (height_eq heightAll)

namespace Template

/-- A failure is met at a node that lies too deep, so the nodes are too high for their level. -/
theorem Fails.lt_heightAll
    {templates : Library} {limit level : Nat} {above location : String} {nodes : List Node}
    {raised : Notices}
    (h : Fails templates limit above level nodes location raised) :
    limit + 1 < level + heightAll nodes := by
  induction h with
  | here beyond =>
      rw [heightAll, height_eq]
      omega
  | inside _ _ _ ih =>
      rw [heightAll, height_eq]
      omega
  | behind _ _ ih =>
      rw [heightAll]
      omega

end Template

namespace Document

open Template

variable {expander : Expander} {roots : List Node}

theorem ofRoots_of_expands
    {text : String} {raised : Notices}
    (h : Expands expander.templates expander.maxDepth "" 1 roots text raised) :
    ofRoots expander roots = .ok ⟨defaultName, wrap text, raised, roots.length⟩ := by
  have hgives := Expander.gives_expandEach_of_expands h
  rw [← Expander.expandAll_eq_expandEach] at hgives
  rw [ofRoots, hgives []]
  rfl

theorem ofRoots_of_fails
    {location : String} {raised : Notices}
    (h : Fails expander.templates expander.maxDepth "" 1 roots location raised) :
    ofRoots expander roots = .error (.tooDeep location expander.maxDepth) := by
  have hgives := Expander.gives_expandEach_of_fails h
  rw [← Expander.expandAll_eq_expandEach] at hgives
  rw [ofRoots, hgives []]

theorem ofRoots_eq_ok_iff {document : Document} :
    ofRoots expander roots = .ok document ↔
      ∃ text raised, Expands expander.templates expander.maxDepth "" 1 roots text raised ∧
        document = ⟨defaultName, wrap text, raised, roots.length⟩ := by
  constructor
  · intro h
    rcases expands_or_fails expander.templates expander.maxDepth roots "" 1 with
      ⟨text, raised, hexpands⟩ | ⟨location, raised, hfails⟩
    · rw [ofRoots_of_expands hexpands] at h
      cases h
      exact ⟨text, raised, hexpands, rfl⟩
    · rw [ofRoots_of_fails hfails] at h
      cases h
  · rintro ⟨text, raised, hexpands, rfl⟩
    exact ofRoots_of_expands hexpands

theorem ofRoots_eq_error_iff {error : ExpansionError} :
    ofRoots expander roots = .error error ↔
      ∃ location raised, Fails expander.templates expander.maxDepth "" 1 roots location raised ∧
        error = .tooDeep location expander.maxDepth := by
  constructor
  · intro h
    rcases expands_or_fails expander.templates expander.maxDepth roots "" 1 with
      ⟨text, raised, hexpands⟩ | ⟨location, raised, hfails⟩
    · rw [ofRoots_of_expands hexpands] at h
      cases h
    · rw [ofRoots_of_fails hfails] at h
      cases h
      exact ⟨location, raised, hfails, rfl⟩
  · rintro ⟨location, raised, hfails, rfl⟩
    exact ofRoots_of_fails hfails

theorem exists_ofRoots_eq_ok
    (expander : Expander)
    (roots : List Node)
    (h : heightAll roots ≤ expander.maxDepth) :
    ∃ document, ofRoots expander roots = .ok document := by
  rcases expands_or_fails expander.templates expander.maxDepth roots "" 1 with
    ⟨text, raised, hexpands⟩ | ⟨location, raised, hfails⟩
  · exact ⟨_, ofRoots_of_expands hexpands⟩
  · have hhigh := hfails.lt_heightAll
    omega

end Document

end TreeGen
