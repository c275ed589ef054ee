import TreeGen.Json.Reader
import TreeGen.Proofs.Json.Lexeme
import TreeGen.Proofs.Text.Utf8

/-!
# The brackets that are open while a value is read

A step of the reader that does not fail opens one bracket, closes one or leaves them alone.  The
reach of a state is the nesting that the parts of the value read so far give it; no step takes
brackets back from it, and it grows exactly when more brackets are open than ever before.  At the
end it is the nesting of the value, so that is the largest number of brackets that were open at the
same time.
-/

namespace TreeGen.Json

/-! ## The nesting of values -/

mutual

/-- The number of arrays and objects around the innermost part of a value. -/
def nesting : Json → Nat
  | .null | .boolean _ | .number _ | .string _ => 0
  | .array items => 1 + nestingItems items
  | .object members => 1 + nestingMembers members

def nestingItems : List Json → Nat
  | [] => 0
  | item :: items => max (nesting item) (nestingItems items)

def nestingMembers : List (String × Json) → Nat
  | [] => 0
  | (_, value) :: members => max (nesting value) (nestingMembers members)

end

theorem nestingItems_append (a b : List Json) :
    nestingItems (a ++ b) = max (nestingItems a) (nestingItems b) := by
  induction a with
  | nil => simp [nestingItems]
  | cons item a ih => simp [nestingItems, ih, Nat.max_assoc]

theorem nestingItems_reverse (items : List Json) :
    nestingItems items.reverse = nestingItems items := by
  induction items with
  | nil => rfl
  | cons item items ih =>
      rw [List.reverse_cons, nestingItems_append, ih]
      simp [nestingItems, Nat.max_comm]

theorem nestingMembers_append (a b : List (String × Json)) :
    nestingMembers (a ++ b) = max (nestingMembers a) (nestingMembers b) := by
  induction a with
  | nil => simp [nestingMembers]
  | cons member a ih =>
      obtain ⟨key, value⟩ := member
      simp [nestingMembers, ih, Nat.max_assoc]

theorem nestingMembers_reverse (members : List (String × Json)) :
    nestingMembers members.reverse = nestingMembers members := by
  induction members with
  | nil => rfl
  | cons member members ih =>
      obtain ⟨key, value⟩ := member
      rw [List.reverse_cons, nestingMembers_append, ih]
      simp [nestingMembers, Nat.max_comm]

theorem nesting_le_nestingMembers
    {key : String} {value : Json} {members : List (String × Json)}
    (h : (key, value) ∈ members) :
    value.nesting ≤ nestingMembers members := by
  obtain ⟨before, after, rfl⟩ := List.append_of_mem h
  rw [nestingMembers_append, nestingMembers]
  omega

namespace State

/-! ## What a step can do -/

def alive : State → Bool
  | .failed _ => false
  | _ => true

/-- `Awaits state frames`: a value may come next, and it would stand inside `frames`. -/
inductive Awaits : State → List Frame → Prop where
  | value (frames : List Frame) :
      Awaits (.awaitingValue frames) frames
  | element (start : List Char) (items : List Json) (commaAllowed : Bool) (frames : List Frame) :
      Awaits (.insideArray start items commaAllowed frames) (.array start items :: frames)

/-- `Stepped state token next`: taking `token` leads from `state` to `next` without a fault. -/
inductive Stepped : State → Token → State → Prop where
  | scalar {state : State} {frames : List Frame} {token : Token} {value : Json}
      (hawaits : Awaits state frames) (hvalue : value.nesting = 0)
      (htoken : token.isScalar) :
      Stepped state token (complete value frames)
  | openArray {state : State} {frames : List Frame} (start : List Char)
      (hawaits : Awaits state frames) :
      Stepped state .openBracket (.insideArray start [] false frames)
  | openObject {state : State} {frames : List Frame} (start : List Char)
      (hawaits : Awaits state frames) :
      Stepped state .openBrace (.insideObject start [] false frames)
  | closeArray (start : List Char) (items : List Json) (commaAllowed : Bool)
      (frames : List Frame) :
      Stepped (.insideArray start items commaAllowed frames) .closeBracket
        (complete (.array items.reverse) frames)
  | closeObject (start : List Char) (members : List (String × Json)) (commaAllowed : Bool)
      (frames : List Frame) :
      Stepped (.insideObject start members commaAllowed frames) .closeBrace
        (complete (.object members.reverse) frames)
  | arrayComma (start : List Char) (items : List Json) (frames : List Frame) :
      Stepped (.insideArray start items true frames) .comma
        (.insideArray start items false frames)
  | objectComma (start : List Char) (members : List (String × Json)) (frames : List Frame) :
      Stepped (.insideObject start members true frames) .comma
        (.insideObject start members false frames)
  | key {token : Token} (start : List Char) (members : List (String × Json))
      (commaAllowed : Bool) (key : String) (frames : List Frame) (htoken : token.isScalar) :
      Stepped (.insideObject start members commaAllowed frames) token
        (.behindKey start members key frames)
  | colon (start : List Char) (members : List (String × Json)) (key : String)
      (frames : List Frame) :
      Stepped (.behindKey start members key frames) .colon
        (.awaitingValue (.object start members key :: frames))

theorem nesting_numeralValue (source : String) : (numeralValue source).nesting = 0 := by
  unfold numeralValue
  split <;> rfl

theorem Stepped.of_beginValue
    {state : State} {frames : List Frame} (hawaits : Awaits state frames) (lexeme : Lexeme)
    (halive : (beginValue lexeme frames).alive) :
    Stepped state lexeme.token (beginValue lexeme frames) := by
  obtain ⟨token, start⟩ := lexeme
  cases token with
  | openBrace => exact .openObject start hawaits
  | openBracket => exact .openArray start hawaits
  | string value => exact .scalar hawaits rfl rfl
  | number source => exact .scalar hawaits (nesting_numeralValue source) rfl
  | boolean value => exact .scalar hawaits rfl rfl
  | null => exact .scalar hawaits rfl rfl
  | _ => exact absurd halive (by simp [beginValue, alive])

theorem Stepped.of_step
    (state : State) (lexeme : Lexeme) (halive : (state.step lexeme).alive) :
    Stepped state lexeme.token (state.step lexeme) := by
  cases state with
  | awaitingValue frames => exact .of_beginValue (.value frames) lexeme halive
  | insideArray start items commaAllowed frames =>
      obtain ⟨token, position⟩ := lexeme
      cases token with
      | closeBracket => exact .closeArray start items commaAllowed frames
      | comma =>
          cases commaAllowed with
          | true => exact .arrayComma start items frames
          | false => exact absurd halive (by simp [step, beginValue, alive])
      | _ => exact .of_beginValue (.element start items commaAllowed frames) ⟨_, position⟩ halive
  | insideObject start members commaAllowed frames =>
      obtain ⟨token, position⟩ := lexeme
      cases token with
      | closeBrace => exact .closeObject start members commaAllowed frames
      | comma =>
          cases commaAllowed with
          | true => exact .objectComma start members frames
          | false => exact absurd halive (by simp [step, alive])
      | string key => exact .key start members commaAllowed key frames rfl
      | word key => exact .key start members commaAllowed key frames rfl
      | number key => exact .key start members commaAllowed key frames rfl
      | _ => exact absurd halive (by simp [step, alive])
  | behindKey start members key frames =>
      obtain ⟨token, position⟩ := lexeme
      cases token with
      | colon => exact .colon start members key frames
      | _ => exact absurd halive (by simp [step, alive])
  | finished value => exact absurd halive (by simp [step, alive])
  | failed fault => exact absurd halive (by simp [step, alive])

/-! ## The number of open brackets -/

theorem openCount_complete (value : Json) (frames : List Frame) :
    (complete value frames).openCount = frames.length := by
  cases frames with
  | nil => rfl
  | cons frame frames => cases frame <;> rfl

theorem Awaits.openCount_eq
    {state : State} {frames : List Frame} (h : Awaits state frames) :
    state.openCount = frames.length := by
  cases h <;> rfl

/-- A step changes the number of open brackets as its token says. -/
theorem Stepped.openCount_eq
    {state next : State} {token : Token} (h : Stepped state token next) :
    next.openCount = token.depthAfter state.openCount := by
  cases h with
  | scalar hawaits hvalue htoken =>
      rw [openCount_complete, Token.depthAfter_of_isScalar htoken, hawaits.openCount_eq]
  | openArray start hawaits => rw [hawaits.openCount_eq]; rfl
  | openObject start hawaits => rw [hawaits.openCount_eq]; rfl
  | closeArray start items commaAllowed frames => rw [openCount_complete]; rfl
  | closeObject start members commaAllowed frames => rw [openCount_complete]; rfl
  | arrayComma => rfl
  | objectComma => rfl
  | key start members commaAllowed key frames htoken =>
      rw [Token.depthAfter_of_isScalar htoken]; rfl
  | colon => rfl

/-! ## The nesting that has been reached -/

end State

def Frame.nesting : Frame → Nat
  | .array _ items => nestingItems items
  | .object _ members _ => nestingMembers members

/-- The nesting of what a value of nesting `inner` is part of, where `frames` stand around it. -/
def enclose (inner : Nat) : List Frame → Nat
  | [] => inner
  | frame :: frames => enclose (1 + max inner frame.nesting) frames

/-- A deeper value inside the same frames either raises the nesting of the whole to its own level or
does not change it. -/
theorem enclose_eq (inner : Nat) (frames : List Frame) :
    enclose inner frames = max (enclose 0 frames) (inner + frames.length) := by
  induction frames generalizing inner with
  | nil => simp [enclose]
  | cons frame frames ih =>
      rw [enclose, enclose, ih (1 + max inner frame.nesting), ih (1 + max 0 frame.nesting),
        List.length_cons]
      omega

namespace State

/-- The nesting that the parts read so far give the whole value. -/
def reach : State → Nat
  | .awaitingValue frames => enclose 0 frames
  | .insideArray _ items _ frames => enclose (1 + nestingItems items) frames
  | .insideObject _ members _ frames => enclose (1 + nestingMembers members) frames
  | .behindKey _ members _ frames => enclose (1 + nestingMembers members) frames
  | .finished value => value.nesting
  | .failed _ => 0

theorem openCount_le_reach (state : State) : state.openCount ≤ state.reach := by
  cases state with
  | awaitingValue frames =>
      rw [openCount, reach, enclose_eq]
      omega
  | insideArray start items commaAllowed frames =>
      rw [openCount, reach, enclose_eq]
      omega
  | insideObject start members commaAllowed frames =>
      rw [openCount, reach, enclose_eq]
      omega
  | behindKey start members key frames =>
      rw [openCount, reach, enclose_eq]
      omega
  | finished value => exact Nat.zero_le _
  | failed fault => exact Nat.zero_le _

theorem reach_complete (value : Json) (frames : List Frame) :
    (complete value frames).reach = enclose value.nesting frames := by
  cases frames with
  | nil => rfl
  | cons frame frames => cases frame <;> rfl

theorem Awaits.reach_eq
    {state : State} {frames : List Frame} (h : Awaits state frames) :
    state.reach = enclose 0 frames := by
  cases h with
  | value frames => rfl
  | element start items commaAllowed frames =>
      rw [reach, enclose, Frame.nesting, Nat.zero_max]

/-- A step raises the reach to the number of open brackets, if that is larger. -/
theorem Stepped.reach_eq
    {state next : State} {token : Token} (h : Stepped state token next) :
    next.reach = max state.reach next.openCount := by
  cases h with
  | @scalar state frames token value hawaits hvalue htoken =>
      rw [reach_complete, openCount_complete, hvalue, hawaits.reach_eq, enclose_eq 0 frames]
      omega
  | @openArray state frames start hawaits =>
      rw [hawaits.reach_eq, reach, openCount, nestingItems, enclose_eq]
      omega
  | @openObject state frames start hawaits =>
      rw [hawaits.reach_eq, reach, openCount, nestingMembers, enclose_eq]
      omega
  | closeArray start items commaAllowed frames =>
      rw [reach_complete, openCount_complete, Json.nesting, nestingItems_reverse, reach,
        enclose_eq]
      omega
  | closeObject start members commaAllowed frames =>
      rw [reach_complete, openCount_complete, Json.nesting, nestingMembers_reverse, reach,
        enclose_eq]
      omega
  | arrayComma start items frames =>
      exact (Nat.max_eq_left (openCount_le_reach (.insideArray start items false frames))).symm
  | objectComma start members frames =>
      exact (Nat.max_eq_left (openCount_le_reach (.insideObject start members false frames))).symm
  | key start members commaAllowed key frames htoken =>
      exact (Nat.max_eq_left (openCount_le_reach (.behindKey start members key frames))).symm
  | colon start members key frames =>
      rw [reach, reach, openCount, enclose, Frame.nesting, Nat.zero_max, enclose_eq,
        List.length_cons]
      omega

/-! ## Runs -/

theorem run_cons (state : State) (lexeme : Lexeme) (lexemes : List Lexeme) :
    state.run (lexeme :: lexemes) = (state.step lexeme).run lexemes := rfl

theorem openCount_of_not_alive {state : State} (h : state.alive = false) :
    state.openCount = 0 := by
  cases state <;> simp_all [alive, openCount]

theorem run_of_not_alive {state : State} (h : state.alive = false) (lexemes : List Lexeme) :
    state.run lexemes = state := by
  induction lexemes with
  | nil => rfl
  | cons lexeme lexemes ih =>
      have hstep : state.step lexeme = state := by
        cases state <;> simp_all [alive, step]
      rw [run_cons, hstep, ih]

theorem alive_of_alive_run {state : State} {lexemes : List Lexeme}
    (h : (state.run lexemes).alive) : state.alive := by
  cases halive : state.alive with
  | true => rfl
  | false =>
      rw [run_of_not_alive halive, halive] at h
      exact absurd h (by decide)

/-- A run without a fault reaches as far as it ever had brackets open. -/
theorem openCount_run_take_le_reach
    {state : State} {lexemes : List Lexeme} (halive : (state.run lexemes).alive) :
    state.reach ≤ (state.run lexemes).reach ∧
      ∀ taken, (state.run (lexemes.take taken)).openCount ≤ (state.run lexemes).reach := by
  induction lexemes generalizing state with
  | nil =>
      refine ⟨Nat.le_refl _, fun taken => ?_⟩
      rw [List.take_nil]
      exact openCount_le_reach state
  | cons lexeme lexemes ih =>
      rw [run_cons] at halive ⊢
      obtain ⟨hreach, hopen⟩ := ih halive
      have hstep := (Stepped.of_step state lexeme (alive_of_alive_run halive)).reach_eq
      have hle : state.reach ≤ ((state.step lexeme).run lexemes).reach := by omega
      refine ⟨hle, fun taken => ?_⟩
      cases taken with
      | zero => exact Nat.le_trans (openCount_le_reach state) hle
      | succ taken =>
          rw [List.take_succ_cons, run_cons]
          exact hopen taken

/-- A run without a fault reaches no further than it ever had brackets open. -/
theorem reach_run_le
    {limit : Nat} {state : State} {lexemes : List Lexeme}
    (halive : (state.run lexemes).alive) (hreach : state.reach ≤ limit)
    (hopen : ∀ taken, (state.run (lexemes.take taken)).openCount ≤ limit) :
    (state.run lexemes).reach ≤ limit := by
  induction lexemes generalizing state with
  | nil => exact hreach
  | cons lexeme lexemes ih =>
      rw [run_cons] at halive ⊢
      have hnext : ∀ taken, ((state.step lexeme).run (lexemes.take taken)).openCount ≤ limit := by
        intro taken
        have h := hopen (taken + 1)
        rwa [List.take_succ_cons, run_cons] at h
      have hstep := (Stepped.of_step state lexeme (alive_of_alive_run halive)).reach_eq
      have hfirst : (state.step lexeme).openCount ≤ limit := hnext 0
      exact ih halive (by omega) hnext

theorem openCount_run_le (state : State) (lexemes : List Lexeme) :
    (state.run lexemes).openCount ≤ state.openCount + lexemes.length := by
  induction lexemes generalizing state with
  | nil => exact Nat.le_refl _
  | cons lexeme lexemes ih =>
      rw [run_cons, List.length_cons]
      have hrest := ih (state.step lexeme)
      cases halive : (state.step lexeme).alive with
      | false =>
          rw [run_of_not_alive halive, openCount_of_not_alive halive]
          omega
      | true =>
          have hstep := (Stepped.of_step state lexeme halive).openCount_eq
          have htoken := Token.depthAfter_le lexeme.token state.openCount
          omega

end State

/-! ## What was read -/

/-- The state of the reader after the first `taken` tokens of a text. -/
def stateAfter (text : String) (taken : Nat) : State :=
  State.start.run ((lex text.toList).lexemes.take taken)

def finalState (text : String) : State :=
  State.start.run (lex text.toList).lexemes

/-- A text that is accepted has no fault in its tokens, and the reader meets none. -/
theorem of_read_eq_ok
    {text : String} {value? : Option Json} (h : read text = .ok value?) :
    (lex text.toList).fault? = none ∧ (finalState text).alive ∧
      (finalState text).conclude = .ok value? := by
  unfold read at h
  unfold finalState
  simp only at h
  split at h
  · simp at h
  · simp at h
  · rename_i hfault hfailed
    refine ⟨hfault, ?_, h⟩
    cases hstate : State.start.run (lex text.toList).lexemes with
    | failed fault => exact absurd hstate (hfailed fault)
    | _ => rfl

theorem finalState_of_read_eq_some
    {text : String} {value : Json} (h : read text = .ok (some value)) :
    finalState text = .finished value := by
  obtain ⟨-, -, hconclude⟩ := of_read_eq_ok h
  cases hstate : finalState text with
  | awaitingValue frames =>
      rw [hstate] at hconclude
      cases frames <;> simp [State.conclude] at hconclude
  | finished value' =>
      rw [hstate] at hconclude
      simp only [State.conclude, Except.ok.injEq, Option.some.injEq] at hconclude
      rw [hconclude]
  | _ =>
      rw [hstate] at hconclude
      simp [State.conclude] at hconclude

/-- The brackets that are open while a value is read are no more than it nests. -/
theorem openCount_stateAfter_le_nesting
    {text : String} {value : Json} (h : read text = .ok (some value)) (taken : Nat) :
    (stateAfter text taken).openCount ≤ value.nesting := by
  have hfinal := finalState_of_read_eq_some h
  obtain ⟨-, halive, -⟩ := of_read_eq_ok h
  have hle := (State.openCount_run_take_le_reach halive).2 taken
  rw [← finalState, hfinal] at hle
  exact hle

/-- A value nests no more than the brackets that were open while it was read. -/
theorem nesting_le_of_openCount_stateAfter_le
    {text : String} {value : Json} (h : read text = .ok (some value)) {limit : Nat}
    (hopen : ∀ taken, (stateAfter text taken).openCount ≤ limit) :
    value.nesting ≤ limit := by
  have hfinal := finalState_of_read_eq_some h
  obtain ⟨-, halive, -⟩ := of_read_eq_ok h
  have hle := State.reach_run_le halive (Nat.zero_le limit) hopen
  rw [← finalState, hfinal] at hle
  exact hle

/-- A value nests no more than the text that denotes it has bytes. -/
theorem nesting_le_utf8ByteSize
    {text : String} {value : Json} (h : read text = .ok (some value)) :
    value.nesting ≤ text.utf8ByteSize := by
  apply nesting_le_of_openCount_stateAfter_le h
  intro taken
  have hopen := State.openCount_run_le .start ((lex text.toList).lexemes.take taken)
  have htokens := length_lexemes_le text.toList
  have hlength := Text.length_le_byteLength text.toList
  have htaken := List.length_take_le' taken (lex text.toList).lexemes
  have hstart : State.start.openCount = 0 := rfl
  rw [stateAfter, Text.utf8ByteSize_eq_byteLength]
  omega

end TreeGen.Json
