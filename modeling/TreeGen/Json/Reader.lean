import TreeGen.Json
import TreeGen.Json.Lexeme

/-!
# Reading a JSON value

The reader is a machine that takes one token at a time.  Its state says what may come next and
keeps the arrays and objects that are still open, so the number of open brackets at every point of
the text can be read off the state.  Commas between elements may be missing and one may trail; two
in a row are refused.  Keys are strings, bare words or numerals.

A numeral whose number is not finite denotes the string of its source.
-/

namespace TreeGen.Json

/-- A bracket that is still open around the value being read. -/
inductive Frame where
  /-- An array: the text from its bracket on, and its elements so far, latest first. -/
  | array (start : List Char) (items : List Json)
  /-- An object: the text from its brace on, its members so far, latest first, and the key whose
  value is being read. -/
  | object (start : List Char) (members : List (String × Json)) (key : String)
deriving Repr

/-- What the reader has seen and what may come next. -/
inductive State where
  /-- A value: of the whole text, or of the key of the innermost object. -/
  | awaitingValue (frames : List Frame)
  /-- An element or the end of an array; a comma too, if one is allowed. -/
  | insideArray (start : List Char) (items : List Json) (commaAllowed : Bool) (frames : List Frame)
  /-- A key or the end of an object; a comma too, if one is allowed. -/
  | insideObject (start : List Char) (members : List (String × Json)) (commaAllowed : Bool)
      (frames : List Frame)
  /-- The colon behind a key. -/
  | behindKey (start : List Char) (members : List (String × Json)) (key : String)
      (frames : List Frame)
  | finished (value : Json)
  | failed (fault : Fault)
deriving Repr

namespace State

def start : State := .awaitingValue []

/-- The number of arrays and objects that are open. -/
def openCount : State → Nat
  | .awaitingValue frames => frames.length
  | .insideArray _ _ _ frames => frames.length + 1
  | .insideObject _ _ _ frames => frames.length + 1
  | .behindKey _ _ _ frames => frames.length + 1
  | .finished _ => 0
  | .failed _ => 0

/-- The state after a value has been read inside the given brackets. -/
def complete (value : Json) : List Frame → State
  | [] => .finished value
  | .array start items :: frames => .insideArray start (value :: items) true frames
  | .object start members key :: frames => .insideObject start ((key, value) :: members) true frames

def numeralValue (source : String) : Json :=
  if Numeral.overflows source.toList then .string source else .number source

/-- Take the first token of a value that stands inside the given brackets. -/
def beginValue (lexeme : Lexeme) (frames : List Frame) : State :=
  match lexeme.token with
  | .openBrace => .insideObject lexeme.start [] false frames
  | .openBracket => .insideArray lexeme.start [] false frames
  | .string value => complete (.string value) frames
  | .number source => complete (numeralValue source) frames
  | .boolean value => complete (.boolean value) frames
  | .null => complete .null frames
  | .closeBrace => .failed ⟨.closeBrace, lexeme.start⟩
  | .closeBracket => .failed ⟨.closeBracket, lexeme.start⟩
  | .comma => .failed ⟨.comma, lexeme.start⟩
  | .colon => .failed ⟨.colon, lexeme.start⟩
  | .word _ => .failed ⟨.word, lexeme.start⟩

def step (state : State) (lexeme : Lexeme) : State :=
  match state with
  | .awaitingValue frames => beginValue lexeme frames
  | .insideArray start items commaAllowed frames =>
    match lexeme.token, commaAllowed with
    | .closeBracket, _ => complete (.array items.reverse) frames
    | .comma, true => .insideArray start items false frames
    | _, _ => beginValue lexeme (.array start items :: frames)
  | .insideObject start members commaAllowed frames =>
    match lexeme.token, commaAllowed with
    | .closeBrace, _ => complete (.object members.reverse) frames
    | .comma, true => .insideObject start members false frames
    | .string key, _ => .behindKey start members key frames
    | .word key, _ => .behindKey start members key frames
    | .number key, _ => .behindKey start members key frames
    | _, _ => .failed ⟨.keyExpected, lexeme.start⟩
  | .behindKey start members key frames =>
    match lexeme.token with
    | .colon => .awaitingValue (.object start members key :: frames)
    | _ => .failed ⟨.colonExpected, lexeme.start⟩
  | .finished _ => .failed ⟨.secondValue, lexeme.start⟩
  | .failed fault => .failed fault

def run (state : State) (lexemes : List Lexeme) : State :=
  lexemes.foldl step state

/-- What the text turns out to be when it ends in this state; a text without a value is `none`. -/
def conclude : State → Except Fault (Option Json)
  | .awaitingValue [] => .ok none
  | .awaitingValue (_ :: _) => .error ⟨.memberValueExpected, []⟩
  | .insideArray start _ _ _ => .error ⟨.unterminatedArray, start⟩
  | .insideObject start _ _ _ => .error ⟨.unterminatedObject, start⟩
  | .behindKey _ _ _ _ => .error ⟨.colonExpected, []⟩
  | .finished value => .ok (some value)
  | .failed fault => .error fault

end State

/-- The value that a text denotes, `none` for a text of white space and comments. -/
def read (text : String) : Except Fault (Option Json) :=
  let scan := lex text.toList
  match State.start.run scan.lexemes, scan.fault? with
  | .failed fault, _ => .error fault
  | _, some fault => .error fault
  | state, none => state.conclude

end TreeGen.Json
