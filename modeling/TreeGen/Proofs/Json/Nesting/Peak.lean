import TreeGen.Proofs.Json.Nesting.Exactness

/-!
# The most brackets that are open at once

The largest number of arrays and objects that are open at the same point of a text is the limit
under which the nesting scan still lets the text through.  On a text for a value it is the nesting
of that value.
-/

namespace TreeGen.Json

open Nesting

def State.mostOpen (state : State) : List Lexeme → Nat
  | [] => state.openCount
  | lexeme :: lexemes => max state.openCount ((state.step lexeme).mostOpen lexemes)

/-- The largest number of arrays and objects that are open at one point of a text. -/
def mostOpen (text : String) : Nat :=
  State.start.mostOpen (lex text.toList).lexemes

theorem State.mostOpen_le_iff {state : State} {lexemes : List Lexeme} {limit : Nat} :
    state.mostOpen lexemes ≤ limit ↔
      ∀ taken, (state.run (lexemes.take taken)).openCount ≤ limit := by
  induction lexemes generalizing state with
  | nil =>
      rw [mostOpen]
      constructor
      · intro h taken
        rw [List.take_nil]
        exact h
      · intro h
        exact h 0
  | cons lexeme lexemes ih =>
      rw [mostOpen, Nat.max_le, ih]
      constructor
      · rintro ⟨hfirst, hothers⟩ taken
        cases taken with
        | zero => exact hfirst
        | succ taken =>
            rw [List.take_succ_cons, run_cons]
            exact hothers taken
      · intro h
        refine ⟨h 0, ?_⟩
        intro taken
        have hnext := h (taken + 1)
        rwa [List.take_succ_cons, run_cons] at hnext

theorem mostOpen_le_iff {text : String} {limit : Nat} :
    mostOpen text ≤ limit ↔ ∀ taken, (stateAfter text taken).openCount ≤ limit :=
  State.mostOpen_le_iff

/-- A text that is accepted passes the scan exactly where its brackets are within the limit. -/
theorem firstExcess?_eq_none_iff
    {text : String} {value? : Option Json} (haccepted : read text = .ok value?) (limit : Nat) :
    firstExcess? text limit = none ↔ mostOpen text ≤ limit := by
  rw [mostOpen_le_iff]
  constructor
  · intro hscan
    exact openCount_stateAfter_le_of_firstExcess?_eq_none hscan
  · intro hopen
    exact firstExcess?_eq_none_of_openCount_le haccepted hopen

theorem mostOpen_eq_nesting
    {text : String} {value : Json} (haccepted : read text = .ok (some value)) :
    mostOpen text = value.nesting := by
  apply Nat.le_antisymm
  · rw [mostOpen_le_iff]
    exact openCount_stateAfter_le_nesting haccepted
  · apply nesting_le_of_openCount_stateAfter_le haccepted
    exact mostOpen_le_iff.mp (Nat.le_refl _)

end TreeGen.Json
