import TreeGen.Json.Printer
import TreeGen.Proofs.Json.Quoted
import TreeGen.Proofs.Json.Reader

/-!
# Printed values read back

A value of strings, arrays and objects is read back from its printed text, whatever white space the
layout puts between its tokens.  The proof follows the printer: from any state that awaits a value,
the reader goes through the printed text and arrives where that value is complete.  What stands
behind the printed text is arbitrary, so the texts of elements and members can be put together.
-/

namespace TreeGen.Json

open Text
open State (Awaits complete)

/-! ## Scanning and reading at once -/

/-- The state of the reader at the end of a text or at the first fault of its tokens, and the fault,
where the reader starts on the text in a given state. -/
def advance (state : State) (text : List Char) : State × Option Fault :=
  (state.run (lex text).lexemes, (lex text).fault?)

theorem advance_nil (state : State) : advance state [] = (state, none) := by
  rw [advance, lex_nil]
  rfl

theorem advance_of_isBlank (state : State) {c : Char} (hc : isBlank c) (rest : List Char) :
    advance state (c :: rest) = advance state rest := by
  rw [advance, lex_of_isBlank hc, advance]

theorem advance_append_of_isBlank
    (state : State) {blanks : List Char} (h : ∀ c ∈ blanks, isBlank c) (rest : List Char) :
    advance state (blanks ++ rest) = advance state rest := by
  induction blanks with
  | nil => rfl
  | cons c blanks ih =>
      rw [List.forall_mem_cons] at h
      rw [List.cons_append, advance_of_isBlank state h.1]
      exact ih h.2

theorem advance_of_token
    (state : State) {c : Char} {rest behind : List Char} {token : Token}
    (hc : ¬ isBlank c) (h : scan c rest = .ok (some token, behind)) :
    advance state (c :: rest) = advance (state.step ⟨token, c :: rest⟩) behind := by
  rw [advance, lex_of_token hc h]
  rfl

theorem not_isBlank_of_punctuation?
    {c : Char} {token : Token} (h : punctuation? c = some token) : ¬ isBlank c := by
  unfold punctuation? at h
  split at h
  case h_7 => simp at h
  all_goals decide

theorem advance_of_punctuation?
    (state : State) {c : Char} {token : Token} (h : punctuation? c = some token)
    (rest : List Char) :
    advance state (c :: rest) = advance (state.step ⟨token, c :: rest⟩) rest := by
  refine advance_of_token state (not_isBlank_of_punctuation? h) ?_
  rw [scan, h]

theorem advance_printString (state : State) (value : String) (rest : List Char) :
    advance state (printString value ++ rest) =
      advance (state.step ⟨.string value, printString value ++ rest⟩) rest := by
  have hbody := Quoted.body_flatMap_escapeChar
    ('"' :: (value.toList.flatMap escapeChar ++ '"' :: rest)) value.toList rest
  have hprint : printString value ++ rest =
      '"' :: (value.toList.flatMap escapeChar ++ '"' :: rest) := by
    simp [printString]
  have hquote : punctuation? '"' = none := rfl
  rw [hprint]
  refine advance_of_token state (by decide) ?_
  rw [scan, hquote]
  simp only [true_or, if_true, hbody, Reading.mapValue, String.ofList_toList]

/-- A text is read as the value in which the reader finishes. -/
theorem read_of_advance
    {text : String} {value : Json}
    (h : advance .start text.toList = (.finished value, none)) :
    read text = .ok (some value) := by
  obtain ⟨hrun, hfault⟩ := Prod.mk.inj h
  rw [read]
  simp only [hrun, hfault, State.conclude]

/-! ## Values of strings, arrays and objects -/

mutual

/-- A value all of whose scalars are strings. -/
def Textual : Json → Prop
  | .null | .boolean _ | .number _ => False
  | .string _ => True
  | .array items => TextualItems items
  | .object members => TextualMembers members

def TextualItems : List Json → Prop
  | [] => True
  | item :: items => Textual item ∧ TextualItems items

def TextualMembers : List (String × Json) → Prop
  | [] => True
  | member :: members => Textual member.2 ∧ TextualMembers members

end

/-- A layout that puts nothing but white space between the tokens. -/
structure Layout.Blank (layout : Layout) : Prop where
  gap : ∀ depth, ∀ c ∈ layout.gap depth, isBlank c
  afterColon : ∀ c ∈ layout.afterColon, isBlank c

theorem blank_compact : Layout.compact.Blank where
  gap _ _ hc := absurd hc List.not_mem_nil
  afterColon _ hc := absurd hc List.not_mem_nil

theorem blank_indented : Layout.indented.Blank where
  gap _ _ hc := by
    rcases List.mem_cons.mp hc with rfl | hc
    · decide
    · rw [List.eq_of_mem_replicate hc]
      decide
  afterColon _ hc := by
    rw [List.mem_singleton.mp hc]
    decide

/-! ## Reading what was printed -/

theorem step_string
    {state : State} {frames : List Frame} (h : Awaits state frames)
    (value : String) (start : List Char) :
    state.step ⟨.string value, start⟩ = complete (.string value) frames := by
  cases h <;> rfl

theorem step_openBracket
    {state : State} {frames : List Frame} (h : Awaits state frames) (start : List Char) :
    state.step ⟨.openBracket, start⟩ = .insideArray start [] false frames := by
  cases h <;> rfl

theorem step_openBrace
    {state : State} {frames : List Frame} (h : Awaits state frames) (start : List Char) :
    state.step ⟨.openBrace, start⟩ = .insideObject start [] false frames := by
  cases h <;> rfl

theorem step_closeBracket
    (opening : List Char) (items : List Json) (commaAllowed : Bool) (frames : List Frame)
    (start : List Char) :
    (State.insideArray opening items commaAllowed frames).step ⟨.closeBracket, start⟩ =
      complete (.array items.reverse) frames :=
  rfl

theorem step_closeBrace
    (opening : List Char) (members : List (String × Json)) (commaAllowed : Bool)
    (frames : List Frame) (start : List Char) :
    (State.insideObject opening members commaAllowed frames).step ⟨.closeBrace, start⟩ =
      complete (.object members.reverse) frames :=
  rfl

theorem step_arrayComma
    (opening : List Char) (items : List Json) (frames : List Frame) (start : List Char) :
    (State.insideArray opening items true frames).step ⟨.comma, start⟩ =
      .insideArray opening items false frames :=
  rfl

theorem step_objectComma
    (opening : List Char) (members : List (String × Json)) (frames : List Frame)
    (start : List Char) :
    (State.insideObject opening members true frames).step ⟨.comma, start⟩ =
      .insideObject opening members false frames :=
  rfl

theorem step_key
    (opening : List Char) (members : List (String × Json)) (commaAllowed : Bool)
    (frames : List Frame) (key : String) (start : List Char) :
    (State.insideObject opening members commaAllowed frames).step ⟨.string key, start⟩ =
      .behindKey opening members key frames :=
  rfl

theorem step_colon
    (opening : List Char) (members : List (String × Json)) (key : String)
    (frames : List Frame) (start : List Char) :
    (State.behindKey opening members key frames).step ⟨.colon, start⟩ =
      .awaitingValue (.object opening members key :: frames) :=
  rfl

section

variable {layout : Layout} (hlayout : layout.Blank)

include hlayout

mutual

/-- From a state that awaits a value, a printed value leads to where it is complete. -/
theorem advance_print :
    ∀ (json : Json) (depth : Nat) (state : State) (frames : List Frame) (rest : List Char),
      Textual json → Awaits state frames →
        advance state (print layout depth json ++ rest) = advance (complete json frames) rest
  | .string value, depth, state, frames, rest, _, hawaits => by
    rw [print, advance_printString, step_string hawaits]
  | .array [], depth, state, frames, rest, _, hawaits => by
    have hopen : punctuation? '[' = some .openBracket := rfl
    have hclose : punctuation? ']' = some .closeBracket := rfl
    rw [print]
    simp only [List.cons_append, List.nil_append]
    rw [advance_of_punctuation? state hopen, step_openBracket hawaits,
      advance_of_punctuation? _ hclose]
    rfl
  | .array (item :: items), depth, state, frames, rest, htextual, hawaits => by
    have hopen : punctuation? '[' = some .openBracket := rfl
    have hclose : punctuation? ']' = some .closeBracket := rfl
    rw [Textual, TextualItems] at htextual
    rw [print]
    simp only [List.cons_append, List.append_assoc, List.nil_append]
    rw [advance_of_punctuation? state hopen, step_openBracket hawaits,
      advance_append_of_isBlank _ (hlayout.gap _),
      advance_print item _ _ _ _ htextual.1 (.element _ _ _ _), complete,
      advance_printItems items _ _ _ _ _ htextual.2,
      advance_append_of_isBlank _ (hlayout.gap _), advance_of_punctuation? _ hclose,
      step_closeBracket, List.reverse_append, List.reverse_reverse]
    rfl
  | .object [], depth, state, frames, rest, _, hawaits => by
    have hopen : punctuation? '{' = some .openBrace := rfl
    have hclose : punctuation? '}' = some .closeBrace := rfl
    rw [print]
    simp only [List.cons_append, List.nil_append]
    rw [advance_of_punctuation? state hopen, step_openBrace hawaits,
      advance_of_punctuation? _ hclose]
    rfl
  | .object (member :: members), depth, state, frames, rest, htextual, hawaits => by
    have hopen : punctuation? '{' = some .openBrace := rfl
    have hclose : punctuation? '}' = some .closeBrace := rfl
    rw [Textual] at htextual
    rw [print]
    simp only [List.cons_append, List.append_assoc, List.nil_append]
    rw [advance_of_punctuation? state hopen, step_openBrace hawaits,
      advance_append_of_isBlank _ (hlayout.gap _),
      advance_printMember member _ _ _ _ _ _ htextual.1,
      advance_printMembers members _ _ _ _ _ htextual.2,
      advance_append_of_isBlank _ (hlayout.gap _), advance_of_punctuation? _ hclose,
      step_closeBrace, List.reverse_append, List.reverse_reverse]
    rfl

theorem advance_printItems :
    ∀ (items : List Json) (depth : Nat) (start : List Char) (done : List Json)
      (frames : List Frame) (rest : List Char),
      TextualItems items →
        advance (.insideArray start done true frames) (printItems layout depth items ++ rest) =
          advance (.insideArray start (items.reverse ++ done) true frames) rest
  | [], depth, start, done, frames, rest, _ => by
    rw [printItems]
    rfl
  | item :: items, depth, start, done, frames, rest, htextual => by
    have hcomma : punctuation? ',' = some .comma := rfl
    rw [TextualItems] at htextual
    rw [printItems]
    simp only [List.cons_append, List.append_assoc]
    rw [advance_of_punctuation? _ hcomma, step_arrayComma,
      advance_append_of_isBlank _ (hlayout.gap _),
      advance_print item _ _ _ _ htextual.1 (.element _ _ _ _), complete,
      advance_printItems items _ _ _ _ _ htextual.2, List.reverse_cons, List.append_assoc]
    rfl

theorem advance_printMember :
    ∀ (member : String × Json) (depth : Nat) (start : List Char)
      (done : List (String × Json)) (commaAllowed : Bool) (frames : List Frame)
      (rest : List Char),
      Textual member.2 →
        advance (.insideObject start done commaAllowed frames)
            (printMember layout depth member ++ rest) =
          advance (.insideObject start (member :: done) true frames) rest
  | (key, value), depth, start, done, commaAllowed, frames, rest, htextual => by
    have hcolon : punctuation? ':' = some .colon := rfl
    rw [printMember]
    simp only [List.cons_append, List.append_assoc]
    rw [advance_printString, step_key, advance_of_punctuation? _ hcolon, step_colon,
      advance_append_of_isBlank _ hlayout.afterColon,
      advance_print value _ _ _ _ htextual (.value _), complete]

theorem advance_printMembers :
    ∀ (members : List (String × Json)) (depth : Nat) (start : List Char)
      (done : List (String × Json)) (frames : List Frame) (rest : List Char),
      TextualMembers members →
        advance (.insideObject start done true frames)
            (printMembers layout depth members ++ rest) =
          advance (.insideObject start (members.reverse ++ done) true frames) rest
  | [], depth, start, done, frames, rest, _ => by
    rw [printMembers]
    rfl
  | member :: members, depth, start, done, frames, rest, htextual => by
    have hcomma : punctuation? ',' = some .comma := rfl
    rw [TextualMembers] at htextual
    rw [printMembers]
    simp only [List.cons_append, List.append_assoc]
    rw [advance_of_punctuation? _ hcomma, step_objectComma,
      advance_append_of_isBlank _ (hlayout.gap _),
      advance_printMember member _ _ _ _ _ _ htextual.1,
      advance_printMembers members _ _ _ _ _ htextual.2, List.reverse_cons, List.append_assoc]
    rfl

end

/-- A value of strings, arrays and objects is read back from its text. -/
theorem read_print (json : Json) (h : Textual json) :
    read (String.ofList (print layout 0 json)) = .ok (some json) := by
  apply read_of_advance
  have hprint := advance_print hlayout json 0 .start [] [] h (.value [])
  rw [List.append_nil, advance_nil] at hprint
  rw [String.toList_ofList, hprint]
  rfl

end

end TreeGen.Json
