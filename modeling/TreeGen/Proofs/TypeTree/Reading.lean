import TreeGen.Proofs.Node.Measure
import TreeGen.Proofs.TypeTree.Nodes
import TreeGen.TypeTree.Reading

/-!
# What it takes to read a type tree

A text is read as a type tree when three things come together: its brackets stay within the limit,
it is JSON for an array, and the elements of the array are nodes.
-/

namespace TreeGen.TypeTree

theorem read_eq_ok_iff (source : Source) (limit : Nat) (roots : List Node) :
    read source limit = .ok roots ↔
      Json.Nesting.firstExcess? source.text (bracketLimit limit) = none ∧
        ∃ items, Json.read source.text = .ok (some (.array items)) ∧
          readNodes limit [] 0 items = .ok roots := by
  rw [read]
  constructor
  · intro h
    split at h
    · simp at h
    · rename_i hnesting
      split at h
      · simp at h
      · simp at h
      · simp at h
      · rename_i document _ hdocument
        split at h
        · simp at h
        · rename_i roots' hroots
          obtain rfl : roots' = roots := by simpa using h
          cases document with
          | array items => exact ⟨hnesting, items, hdocument, hroots⟩
          | _ => simp [readDocument] at hroots
  · rintro ⟨hnesting, items, hitems, hroots⟩
    simp only [hnesting, hitems, readDocument, hroots]

theorem read_of_document
    {source : Source} {limit : Nat} {document : Json}
    (hscan : Json.Nesting.firstExcess? source.text (bracketLimit limit) = none)
    (hvalue : Json.read source.text = .ok (some document)) (hnull : document ≠ .null) :
    read source limit =
      match readDocument limit document with
      | .error fault => .error (fault.toInputError source.text limit)
      | .ok roots => .ok roots := by
  rw [read, hscan, hvalue]
  cases document with
  | null => exact absurd rfl hnull
  | _ => rfl

theorem read_eq_tooDeep_of_excess
    {source : Source} {limit offset : Nat}
    (h : Json.Nesting.firstExcess? source.text (bracketLimit limit) = some offset) :
    read source limit =
      .error (.tooDeep ("offset " ++ toString offset) limit (some ⟨offset, 1⟩)) := by
  rw [read, h]

/-- The ways in which reading a text fails, each with its error. -/
inductive Refuses (source : Source) (limit : Nat) : InputError → Prop where
  | brackets {offset : Nat}
      (hscan : Json.Nesting.firstExcess? source.text (bracketLimit limit) = some offset) :
      Refuses source limit (.tooDeep ("offset " ++ toString offset) limit (some ⟨offset, 1⟩))
  | malformed {fault : Json.Fault}
      (hscan : Json.Nesting.firstExcess? source.text (bracketLimit limit) = none)
      (hvalue : Json.read source.text = .error fault) :
      Refuses source limit (.malformed (fault.message source.text.toList))
  | empty (hscan : Json.Nesting.firstExcess? source.text (bracketLimit limit) = none) :
      Refuses source limit (.emptyInput source.filename)
  | document {document : Json} {fault : Fault}
      (hscan : Json.Nesting.firstExcess? source.text (bracketLimit limit) = none)
      (hvalue : Json.read source.text = .ok (some document))
      (hfault : readDocument limit document = .error fault) :
      Refuses source limit (fault.toInputError source.text limit)

theorem refuses_of_read_eq_error
    {source : Source} {limit : Nat} {error : InputError} (h : read source limit = .error error) :
    Refuses source limit error := by
  rw [read] at h
  split at h
  · rename_i offset hscan
    cases h
    exact .brackets hscan
  · rename_i hscan
    split at h
    · rename_i fault hvalue
      cases h
      exact .malformed hscan hvalue
    · cases h
      exact .empty hscan
    · cases h
      exact .empty hscan
    · rename_i document _ hvalue
      split at h
      · rename_i fault hfault
        cases h
        exact .document hscan hvalue hfault
      · cases h

theorem heightAll_le_of_read_eq_ok
    {source : Source} {limit : Nat} {roots : List Node}
    (h : read source limit = .ok roots) :
    Node.heightAll roots ≤ limit := by
  obtain ⟨-, items, -, hroots⟩ := (read_eq_ok_iff source limit roots).mp h
  exact heightAll_le_of_readNodes hroots

end TreeGen.TypeTree
