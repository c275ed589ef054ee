import TreeGen.Text.Character
import TreeGen.Toml.Reading

/-!
# Quoted texts in TOML

Texts in double quotes know escapes, texts in single quotes do not.  Either kind may be tripled to
run over several lines; then a line end right behind the opening quotes is dropped, up to two quotes
may stand right before the closing ones, and, between double quotes, a backslash at the end of a
line drops the line end and all white space behind it.
-/

namespace TreeGen.Toml

open Text

/-- Read the part of an escape behind its backslash. -/
def escape : Reader Char
  | 'b' :: rest => some ('\x08', rest)
  | 't' :: rest => some ('\t', rest)
  | 'n' :: rest => some ('\n', rest)
  | 'f' :: rest => some ('\x0c', rest)
  | 'r' :: rest => some ('\r', rest)
  | 'e' :: rest => some ('\x1b', rest)
  | '"' :: rest => some ('"', rest)
  | '\\' :: rest => some ('\\', rest)
  | 'x' :: rest => coded 2 rest
  | 'u' :: rest => coded 4 rest
  | 'U' :: rest => coded 8 rest
  | _ => none
where
  coded (count : Nat) (text : List Char) : Option (Char × List Char) :=
    if text.length < count then none
    else do
      let code ← hexNumber? (text.take count)
      let character ← character? code
      return (character, text.drop count)

/-- The text behind the end of a line that a backslash hides, together with the white space and the
line ends behind it. -/
def hiddenLineEnd? (text : List Char) : Option (List Char) :=
  match skipSpace text with
  | '\n' :: rest => some (blank rest)
  | '\r' :: '\n' :: rest => some (blank rest)
  | _ => none
where
  blank : List Char → List Char
    | '\r' :: '\n' :: rest => blank rest
    | c :: rest => if isSpace c ∨ c = '\n' then blank rest else c :: rest
    | [] => []

def withFirst (c : Char) (result : Option (List Char × List Char)) :
    Option (List Char × List Char) :=
  result.map fun (inside, rest) => (c :: inside, rest)

/-- Read the inside of a text in double quotes, with the closing quote. -/
def basicBody : Reader (List Char)
  | [] => none
  | c :: rest =>
    if c = '"' then some ([], rest)
    else if c = '\\' then
      match taken? rest (escape rest) with
      | none => none
      | some ⟨character, behind, _⟩ => withFirst character (basicBody behind)
    else if isControl c then none
    else withFirst c (basicBody rest)
termination_by text => text.length
decreasing_by all_goals simp only [List.length_cons]; omega

def literalBody : Reader (List Char)
  | [] => none
  | c :: rest =>
    if c = '\'' then some ([], rest)
    else if isControl c then none
    else withFirst c (literalBody rest)

/-- Read three to five quotes: what stands for itself, and the text behind the closing three. -/
def closingQuotes? (quote : Char) (text : List Char) : Option (List Char × List Char) :=
  let run := (text.takeWhile (· == quote)).length
  if run < 3 then none
  else
    let extra := min (run - 3) 2
    some (List.replicate extra quote, text.drop (extra + 3))

/-- Read the inside of a tripled text, with the closing quotes; escapes count between double
quotes. -/
def multilineBody (quote : Char) (text : List Char) : Option (List Char × List Char) :=
  match text with
  | [] => none
  | '\r' :: '\n' :: rest => withFirst '\r' (withFirst '\n' (multilineBody quote rest))
  | c :: rest =>
    match closingQuotes? quote (c :: rest) with
    | some result => some result
    | none =>
      if c = '\\' ∧ quote = '"' then
        match taken? rest ((hiddenLineEnd? rest).map fun behind => ((), behind)) with
        | some ⟨_, behind, _⟩ => multilineBody quote behind
        | none =>
          match taken? rest (escape rest) with
          | none => none
          | some ⟨character, behind, _⟩ => withFirst character (multilineBody quote behind)
      else if isControl c ∧ c ≠ '\n' then none
      else withFirst c (multilineBody quote rest)
termination_by text.length
decreasing_by all_goals simp only [List.length_cons]; omega

def dropFirstLineEnd : List Char → List Char
  | '\n' :: rest => rest
  | '\r' :: '\n' :: rest => rest
  | text => text

def quotedLine : Reader String
  | '"' :: rest => (basicBody rest).map fun (inside, behind) => (String.ofList inside, behind)
  | '\'' :: rest => (literalBody rest).map fun (inside, behind) => (String.ofList inside, behind)
  | _ => none

def quoted : Reader String
  | '"' :: '"' :: '"' :: rest =>
    (multilineBody '"' (dropFirstLineEnd rest)).map fun (inside, behind) =>
      (String.ofList inside, behind)
  | '\'' :: '\'' :: '\'' :: rest =>
    (multilineBody '\'' (dropFirstLineEnd rest)).map fun (inside, behind) =>
      (String.ofList inside, behind)
  | text => quotedLine text

end TreeGen.Toml
