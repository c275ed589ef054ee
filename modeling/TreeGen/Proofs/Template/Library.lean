import TreeGen.Proofs.Table
import TreeGen.Template.Library

/-!
# What a library says about a classification

Looking up a template answers in terms of the registry: a classification is unregistered when the
registry does not list it, and the resource that is missing is the one it is listed with.
-/

namespace TreeGen.Template.Library

variable {library : Library} {classification resource : String}

theorem find_eq_unregistered_iff :
    library.find classification = .unregistered ↔ classification ∉ library.registry.keys := by
  rw [← Table.get?_eq_none_iff, find, Registry.resource?]
  cases library.registry.get? classification with
  | none => simp
  | some resource =>
      dsimp only
      split <;> simp

theorem find_eq_missing_iff :
    library.find classification = .missing resource ↔
      (classification, resource) ∈ library.registry.entries ∧
        ∀ text, library.texts.get? resource ≠ some (some text) := by
  rw [← Table.get?_eq_some_iff, find, Registry.resource?]
  cases library.registry.get? classification with
  | none => simp
  | some held =>
      dsimp only
      split
      · rename_i template htext
        simp only [reduceCtorEq, Option.some.injEq, false_iff, not_and]
        rintro rfl hnone
        exact hnone template htext
      · rename_i hnone
        simp only [Availability.missing.injEq, Option.some.injEq]
        constructor
        · rintro rfl
          exact ⟨rfl, hnone⟩
        · intro h
          exact h.1

theorem find_eq_of_mem_entries {other : String}
    (h : (classification, resource) ∈ library.registry.entries)
    (hother : (other, resource) ∈ library.registry.entries) :
    library.find classification = library.find other := by
  rw [← Table.get?_eq_some_iff] at h hother
  rw [find, find, Registry.resource?, Registry.resource?, h, hother]

/-- The gaps are the registrations whose resource is missing, in the order of the registry. -/
theorem gaps_eq (library : Library) :
    library.gaps = library.registry.entries.filter fun (classification, resource) =>
      library.find classification = .missing resource := by
  rw [gaps]
  apply List.filter_congr
  rintro ⟨classification, resource⟩ hmem
  rw [Bool.eq_iff_iff, decide_eq_true_iff, find_eq_missing_iff, and_iff_right hmem]
  dsimp only
  rcases library.texts.get? resource with _ | _ | text <;> simp

theorem eq_of_mem_entries {other : String}
    (h : (classification, resource) ∈ library.registry.entries)
    (h' : (classification, other) ∈ library.registry.entries) :
    other = resource := by
  rw [← Table.get?_eq_some_iff] at h h'
  rw [h, Option.some.injEq] at h'
  exact h'.symm

end TreeGen.Template.Library
