import TreeGen.Json.Fault

/-!
# Reading the start of a text

A reader of some part of the syntax takes a text and gives a value together with the text behind
it, or a fault.
-/

namespace TreeGen.Json

/-- A value and the text behind what was read, or a fault. -/
abbrev Reading (α : Type) := Except Fault (α × List Char)

namespace Reading

variable {α β : Type}

def mapValue (f : α → β) : Reading α → Reading β
  | .ok (value, rest) => .ok (f value, rest)
  | .error fault => .error fault

theorem mapValue_eq_ok_iff
    (f : α → β) (reading : Reading α) (value : β) (rest : List Char) :
    mapValue f reading = .ok (value, rest) ↔
      ∃ inner, reading = .ok (inner, rest) ∧ f inner = value := by
  cases reading with
  | error fault => simp [mapValue]
  | ok pair =>
    obtain ⟨inner, rest'⟩ := pair
    simp only [mapValue, Except.ok.injEq, Prod.mk.injEq]
    constructor
    · rintro ⟨h, hrest⟩
      exact ⟨inner, ⟨rfl, hrest⟩, h⟩
    · rintro ⟨_, ⟨rfl, hrest⟩, h⟩
      exact ⟨h, hrest⟩

end Reading

end TreeGen.Json
