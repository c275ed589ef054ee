import TreeGen.Proofs.Json.Nesting.Tokens
import TreeGen.Proofs.Json.Reader

/-!
# The nesting scan guards the reader

The reader opens a bracket only for a bracket token, and as long as it meets no fault the number of
brackets it has open is the depth that its tokens lead to.  The nesting scan counts the same tokens.
So a text in which the scan finds no excess can be read without ever having more brackets open than
the limit allows, whether or not it turns out to be well formed.
-/

namespace TreeGen.Json

open Nesting

/-! ## Counting tokens and counting brackets -/

/-- Without an overrun among the tokens, the limit is kept at every point of a run. -/
theorem openCount_run_take_le_of_overrun?_eq_none
    {limit : Nat} {state : State} {lexemes : List Lexeme}
    (hoverrun : overrun? limit state.openCount lexemes = none)
    (hstart : state.openCount ≤ limit) (taken : Nat) :
    (state.run (lexemes.take taken)).openCount ≤ limit := by
  induction lexemes generalizing state taken with
  | nil =>
      rw [List.take_nil]
      exact hstart
  | cons lexeme lexemes ih =>
      cases taken with
      | zero => exact hstart
      | succ taken =>
          rw [List.take_succ_cons, State.run_cons]
          cases halive : (state.step lexeme).alive with
          | false =>
              rw [State.run_of_not_alive halive, State.openCount_of_not_alive halive]
              exact Nat.zero_le limit
          | true =>
              have hstep := (State.Stepped.of_step state lexeme halive).openCount_eq
              rw [overrun?] at hoverrun
              by_cases hover : lexeme.token.opens ∧ state.openCount + 1 > limit
              · rw [if_pos hover] at hoverrun
                simp at hoverrun
              · rw [if_neg hover, ← hstep] at hoverrun
                refine ih hoverrun ?_ taken
                rw [hstep]
                exact Token.depthAfter_le_limit hover hstart

/-- An overrun among the tokens of a run without a fault is the first point at which the limit is
not kept. -/
theorem exists_of_overrun?_eq_some
    {limit : Nat} {state : State} {lexemes : List Lexeme} {rest : List Char}
    (halive : (state.run lexemes).alive)
    (hoverrun : overrun? limit state.openCount lexemes = some rest)
    (hstart : state.openCount ≤ limit) :
    ∃ taken lexeme, lexemes[taken]? = some lexeme ∧ lexeme.start = rest ∧ lexeme.token.opens ∧
      (∀ earlier ≤ taken, (state.run (lexemes.take earlier)).openCount ≤ limit) ∧
      (state.run (lexemes.take (taken + 1))).openCount = limit + 1 := by
  induction lexemes generalizing state with
  | nil => simp [overrun?] at hoverrun
  | cons lexeme lexemes ih =>
      rw [State.run_cons] at halive
      have hstep := (State.Stepped.of_step state lexeme
        (State.alive_of_alive_run halive)).openCount_eq
      rw [overrun?] at hoverrun
      by_cases hover : lexeme.token.opens ∧ state.openCount + 1 > limit
      · rw [if_pos hover] at hoverrun
        have heq := Token.depthAfter_of_opens hover.1 state.openCount
        refine ⟨0, lexeme, rfl, Option.some.inj hoverrun, hover.1, ?_, ?_⟩
        · intro earlier hearlier
          rw [Nat.le_zero.mp hearlier]
          exact hstart
        · have hfirst : (state.step lexeme).openCount = limit + 1 := by omega
          rw [List.take_succ_cons, List.take_zero]
          exact hfirst
      · rw [if_neg hover, ← hstep] at hoverrun
        have hnext : (state.step lexeme).openCount ≤ limit := by
          rw [hstep]
          exact Token.depthAfter_le_limit hover hstart
        obtain ⟨taken, found, hfound, hrest, hopens, hearlier, hover'⟩ := ih halive hoverrun hnext
        refine ⟨taken + 1, found, hfound, hrest, hopens, ?_, hover'⟩
        intro earlier hle
        cases earlier with
        | zero => exact hstart
        | succ earlier => exact hearlier earlier (Nat.le_of_succ_le_succ hle)

/-! ## The guard -/

theorem overrun?_eq_none_of_firstExcess?_eq_none
    {text : String} {limit : Nat} (h : firstExcess? text limit = none) :
    overrun? limit 0 (lex text.toList).lexemes = none := by
  rw [firstExcess?_eq, Option.map_eq_none_iff] at h
  obtain ⟨beyond, hexcess, -⟩ := Characters.exists_excess?_eq limit 0 text.toList
  rw [hexcess, Option.or_eq_none_iff] at h
  exact h.1

theorem openCount_stateAfter_le_of_firstExcess?_eq_none
    {text : String} {limit : Nat} (h : firstExcess? text limit = none) (taken : Nat) :
    (stateAfter text taken).openCount ≤ limit :=
  openCount_run_take_le_of_overrun?_eq_none
    (overrun?_eq_none_of_firstExcess?_eq_none h) (Nat.zero_le limit) taken

theorem nesting_le_of_firstExcess?_eq_none
    {text : String} {limit : Nat} {value : Json}
    (hscan : firstExcess? text limit = none) (hvalue : read text = .ok (some value)) :
    value.nesting ≤ limit :=
  nesting_le_of_openCount_stateAfter_le hvalue
    (openCount_stateAfter_le_of_firstExcess?_eq_none hscan)

/-- If the scan finds no excess, then at no point of the text, up to its end or its first fault,
does the reader have more brackets open than the limit.  No value that it reads nests deeper. -/
theorem openCount_stateAfter_le
    (text : String) (limit : Nat) (hscan : firstExcess? text limit = none) :
    (∀ taken, (stateAfter text taken).openCount ≤ limit) ∧
      ∀ value, read text = .ok (some value) → value.nesting ≤ limit := by
  constructor
  · exact openCount_stateAfter_le_of_firstExcess?_eq_none hscan
  · intro value hvalue
    exact nesting_le_of_firstExcess?_eq_none hscan hvalue

/-- Brackets in a string and in comments, an escaped quote, a missing comma and no end. -/
theorem openCount_stateAfter_le_two :
    firstExcess? "[['[\\'[' /*[*/ \"'[\" ], [ // [[" 2 = none ∧
      ∀ taken, (stateAfter "[['[\\'[' /*[*/ \"'[\" ], [ // [[" taken).openCount ≤ 2 := by
  have hscan : firstExcess? "[['[\\'[' /*[*/ \"'[\" ], [ // [[" 2 = none := by decide +kernel
  exact ⟨hscan, (openCount_stateAfter_le _ 2 hscan).1⟩

end TreeGen.Json
