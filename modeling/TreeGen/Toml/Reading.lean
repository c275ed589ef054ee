import TreeGen.Toml

/-!
# Reading parts of a TOML text

A reader takes a text and gives a value with the text behind it, or nothing when the text does not
start with what it reads.  Why it does not is of no interest here, since every malformed
configuration is reported alike.  Readers that call themselves do so on a text that has become
shorter, and `taken?` is the check that it has.
-/

namespace TreeGen.Toml

/-- Reads something from the start of a text. -/
abbrev Reader (α : Type) := List Char → Option (α × List Char)

/-- A value that was read, and the rest of the text, which is shorter than the text. -/
structure Taken (α : Type) (text : List Char) where
  value : α
  rest : List Char
  shorter : rest.length < text.length

/-- The result of a reader on `text`, where something must be taken. -/
def taken? {α : Type} (text : List Char) (result : Option (α × List Char)) :
    Option (Taken α text) :=
  match result with
  | none => none
  | some (value, rest) => if h : rest.length < text.length then some ⟨value, rest, h⟩ else none

/-! ## White space, line ends and comments -/

def isSpace (c : Char) : Bool :=
  c == ' ' || c == '\t'

def isControl (c : Char) : Bool :=
  (decide (c.toNat < 32) && c != '\t') || c == '\x7f'

def skipSpace (text : List Char) : List Char :=
  text.dropWhile isSpace

/-- The text behind white space, line ends and comments, from inside a comment if `comment`. -/
def skipBlank? (comment : Bool) : List Char → Option (List Char)
  | [] => some []
  | '\r' :: '\n' :: rest => skipBlank? false rest
  | c :: rest =>
    if c = '\n' then skipBlank? false rest
    else if comment then if isControl c then none else skipBlank? true rest
    else if isSpace c then skipBlank? false rest
    else if c = '#' then skipBlank? true rest
    else some (c :: rest)

theorem skipBlank?_length_le
    {comment : Bool} {text rest : List Char}
    (h : skipBlank? comment text = some rest) :
    rest.length ≤ text.length := by
  fun_induction skipBlank? comment text with
  | case1 => simp_all
  | case2 comment tail ih =>
    have := ih h
    simp only [List.length_cons]
    omega
  | case3 comment tail _ ih =>
    have := ih h
    simp only [List.length_cons]
    omega
  | case4 => simp at h
  | case5 c tail _ _ _ ih =>
    have := ih h
    simp only [List.length_cons]
    omega
  | case6 comment c tail _ _ _ _ ih =>
    have := ih h
    simp only [List.length_cons]
    omega
  | case7 comment tail _ _ _ _ ih =>
    have := ih h
    simp only [List.length_cons]
    omega
  | case8 =>
    simp only [Option.some.injEq] at h
    simp [← h]

/-- The text behind white space, line ends and comments, known not to be longer. -/
def blankSkipped? (text : List Char) : Option { rest : List Char // rest.length ≤ text.length } :=
  match h : skipBlank? false text with
  | none => none
  | some rest => some ⟨rest, skipBlank?_length_le h⟩

/-- The text behind the end of a line, from behind its last expression. -/
def skipLineEnd? (text : List Char) : Option (List Char) :=
  match skipSpace text with
  | [] => some []
  | '\n' :: rest => some rest
  | '\r' :: '\n' :: rest => some rest
  | '#' :: rest => skipBlank? true rest
  | _ => none

end TreeGen.Toml
