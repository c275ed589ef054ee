import Mathlib.Logic.ExistsUnique
import TreeGen.Proofs.Template.Skipped
import TreeGen.Proofs.Template.Subtree

/-!
# Documents of concatenated root lists

The roots of a document are expanded one after another, and what comes of one root does not depend
on the others: neither on their texts nor on the notices they raised.  So the document of a list of
roots can be put together from those of two parts of the list.  Its body, which the content of a
document determines, is the body of the first part followed by that of the second, and notices and
counts add up in the same way.  A part without a document leaves none for the whole, and the first
such part decides the error.
-/

namespace TreeGen

theorem Notices.warningCount_append (notices notices' : Notices) :
    warningCount (notices ++ notices') = warningCount notices + warningCount notices' := by
  rw [warningCount, warnings, List.filter_append, List.length_append]
  rfl

namespace Document

open Template

/-! ## The body of a document -/

/-- The text stands between the opening and the closing of the document. -/
def HasBody (document : Document) (body : String) : Prop :=
  document.content = opening ++ body ++ closing

theorem HasBody.unique {document : Document} {body body' : String}
    (h : document.HasBody body) (h' : document.HasBody body') : body' = body := by
  have hcontent : opening ++ body' ++ closing = opening ++ body ++ closing := h'.symm.trans h
  rwa [String.append_left_inj, String.append_right_inj] at hcontent

theorem existsUnique_body_of_ofRoots
    {expander : Expander} {roots : List Node} {document : Document}
    (h : ofRoots expander roots = .ok document) :
    ∃! body, document.HasBody body := by
  obtain ⟨body, raised, -, rfl⟩ := ofRoots_eq_ok_iff.mp h
  have hbody : HasBody ⟨defaultName, wrap body, raised, roots.length⟩ body := rfl
  exact ⟨body, hbody, fun _ hother => hbody.unique hother⟩

/-! ## Two lists of roots, one after the other -/

section

variable {expander : Expander} {roots roots' : List Node}

theorem ofRoots_append_of_error
    {error : ExpansionError} (h : ofRoots expander roots = .error error) (behind : List Node) :
    ofRoots expander (roots ++ behind) = .error error := by
  obtain ⟨location, raised, hfails, rfl⟩ := ofRoots_eq_error_iff.mp h
  exact ofRoots_of_fails (hfails.append_right behind)

theorem ofRoots_append_of_ok_of_error
    {document : Document} {error : ExpansionError} (h : ofRoots expander roots = .ok document)
    (h' : ofRoots expander roots' = .error error) :
    ofRoots expander (roots ++ roots') = .error error := by
  obtain ⟨text, raised, hexpands, -⟩ := ofRoots_eq_ok_iff.mp h
  obtain ⟨location, raised', hfails, rfl⟩ := ofRoots_eq_error_iff.mp h'
  exact ofRoots_of_fails (.append_left hexpands hfails)

theorem exists_ofRoots_append_of_ok
    {first second : Document} (h : ofRoots expander roots = .ok first)
    (h' : ofRoots expander roots' = .ok second) :
    ∃ joined front back, ofRoots expander (roots ++ roots') = .ok joined ∧
      first.HasBody front ∧ second.HasBody back ∧ joined.HasBody (front ++ back) ∧
      joined.notices = first.notices ++ second.notices ∧
      joined.rootCount = first.rootCount + second.rootCount := by
  obtain ⟨front, raised, hexpands, rfl⟩ := ofRoots_eq_ok_iff.mp h
  obtain ⟨back, raised', hexpands', rfl⟩ := ofRoots_eq_ok_iff.mp h'
  have hjoined := ofRoots_of_expands (hexpands.append hexpands')
  exact ⟨_, front, back, hjoined, rfl, rfl, rfl, rfl, List.length_append⟩

end

/-- The document of two lists of roots, one behind the other, is put together from the documents of
the two.  Where the first list has none, the whole has none for the same reason, and otherwise the
second list decides.  Where both have one the bodies and the notices follow each other, and the
numbers of roots, of skipped subtrees and of warnings add up.  A document has one body only, and no
roots give the opening and the closing with nothing between them. -/
theorem ofRoots_append (expander : Expander) (roots roots' : List Node) :
    (∀ error, ofRoots expander roots = .error error →
      ofRoots expander (roots ++ roots') = .error error) ∧
    (∀ document error, ofRoots expander roots = .ok document →
      ofRoots expander roots' = .error error →
        ofRoots expander (roots ++ roots') = .error error) ∧
    (∀ first second, ofRoots expander roots = .ok first → ofRoots expander roots' = .ok second →
      ∃ joined front back, ofRoots expander (roots ++ roots') = .ok joined ∧
        first.HasBody front ∧ second.HasBody back ∧ joined.HasBody (front ++ back) ∧
        joined.notices = first.notices ++ second.notices ∧
        joined.rootCount = first.rootCount + second.rootCount ∧
        joined.skippedCount = first.skippedCount + second.skippedCount ∧
        joined.notices.warningCount =
          first.notices.warningCount + second.notices.warningCount) ∧
    (∀ document, ofRoots expander roots = .ok document → ∃! body, document.HasBody body) ∧
    ∃ bare, ofRoots expander [] = .ok bare ∧
      bare.content = "using System;namespace SourceGenerator\x7b\x7d" ∧ bare.notices = [] ∧
      bare.rootCount = 0 := by
  refine ⟨?_, ?_, ?_, ?_, ?_⟩
  · intro error h
    exact ofRoots_append_of_error h roots'
  · intro document error h h'
    exact ofRoots_append_of_ok_of_error h h'
  · intro first second h h'
    obtain ⟨joined, front, back, hjoined, hfront, hback, hbody, hnotices, hcount⟩ :=
      exists_ofRoots_append_of_ok h h'
    refine ⟨joined, front, back, hjoined, hfront, hback, hbody, hnotices, hcount, ?_, ?_⟩
    · rw [skippedCount, hnotices, List.length_append, skippedCount, skippedCount]
    · rw [hnotices, Notices.warningCount_append]
  · intro document h
    exact existsUnique_body_of_ofRoots h
  · exact ⟨_, ofRoots_of_expands .nil, rfl, rfl, rfl⟩

/-- Under a limit of three levels the two patchy roots have a document each, and under a limit of
two only the first one has. -/
theorem ofRoots_append_patchyRoots :
    (∃ joined, Document.ofRoots ⟨patchyLibrary, 3⟩ (patchyRoots.take 1 ++ patchyRoots.drop 1) =
        .ok joined ∧
      joined.HasBody ("" ++ "block A [class B;]") ∧ joined.rootCount = 1 + 1 ∧
      joined.skippedCount = 1 + 2 ∧ joined.notices.warningCount = 0 + 1) ∧
    Document.ofRoots ⟨patchyLibrary, 2⟩ (patchyRoots.take 1 ++ patchyRoots.drop 1) =
      .error (.tooDeep "A.B.c" 2) := by
  have hfirst : ∀ limit, limit = 2 ∨ limit = 3 →
      Document.ofRoots ⟨patchyLibrary, limit⟩ (patchyRoots.take 1) =
        .ok ⟨defaultName, wrap "", patchyNotices.take 1, 1⟩ := by
    rintro limit (rfl | rfl) <;> with_unfolding_all rfl
  have hsecond : Document.ofRoots ⟨patchyLibrary, 3⟩ (patchyRoots.drop 1) =
      .ok ⟨defaultName, wrap "block A [class B;]", patchyNotices.drop 1, 1⟩ := by
    with_unfolding_all rfl
  have hdeep : Document.ofRoots ⟨patchyLibrary, 2⟩ (patchyRoots.drop 1) =
      .error (.tooDeep "A.B.c" 2) := by
    with_unfolding_all rfl
  constructor
  · obtain ⟨-, -, hjoin, -, -⟩ :=
      ofRoots_append ⟨patchyLibrary, 3⟩ (patchyRoots.take 1) (patchyRoots.drop 1)
    obtain ⟨joined, front, back, hjoined, hfront, hback, hbody, -, hcount, hskipped, hwarnings⟩ :=
      hjoin _ _ (hfirst 3 (.inr rfl)) hsecond
    obtain rfl : "" = front := hfront.unique rfl
    obtain rfl : "block A [class B;]" = back := hback.unique rfl
    exact ⟨joined, hjoined, hbody, hcount, hskipped, hwarnings⟩
  · obtain ⟨-, hfails, -⟩ :=
      ofRoots_append ⟨patchyLibrary, 2⟩ (patchyRoots.take 1) (patchyRoots.drop 1)
    exact hfails _ _ (hfirst 2 (.inl rfl)) hdeep

end Document

end TreeGen
