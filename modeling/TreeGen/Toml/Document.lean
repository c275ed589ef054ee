import TreeGen.Toml.Quoted
import TreeGen.Toml.Scalar

/-!
# Reading TOML documents

A document is a sequence of lines, each with a header, a pair of a dotted key and a value, or
nothing but white space and a comment.  Arrays and inline tables may run over several lines and may
end with a comma; inside an inline table a line may also end around the equals sign.  Values nest at
most eighty brackets deep, and a key has at most eighty parts.

The lines are read first and then put together in order, which is where a key that is given twice
or a table that may not be extended is refused.
-/

namespace TreeGen.Toml

/-! ## Keys -/

def isBareKey (c : Char) : Bool :=
  c.isAlphanum || c == '-' || c == '_'

def simpleKey : Reader String := fun text =>
  match text with
  | [] => none
  | c :: _ =>
    if c = '"' ∨ c = '\'' then quotedLine text
    else
      let bare := text.takeWhile isBareKey
      if bare.isEmpty then none else some (String.ofList bare, text.drop bare.length)

def keyDot : Reader Unit := fun text =>
  match skipSpace text with
  | '.' :: rest => some ((), skipSpace rest)
  | _ => none

/-- Read the parts of a dotted key and the white space behind it. -/
def keyParts (text : List Char) : Option (List String × List Char) :=
  match taken? text (simpleKey text) with
  | none => none
  | some ⟨key, behind, _⟩ =>
    match taken? behind (keyDot behind) with
    | none => some ([key], skipSpace behind)
    | some ⟨_, rest, _⟩ => (keyParts rest).map fun (path, rest) => (key :: path, rest)
termination_by text.length

/-- The number of brackets that may be open in a value, and the number of parts of a key. -/
def maxNesting : Nat := 80

def dottedKey : Reader (List String) := fun text =>
  (keyParts text).filter fun (path, _) => decide (path.length ≤ maxNesting)

def keyBeforeEquals : Reader (List String) := fun text => do
  let (path, rest) ← dottedKey text
  match rest with
  | '=' :: rest => return (path, skipSpace rest)
  | _ => none

/-- Read a dotted key and the equals sign behind it, with the white space, the line ends and the
comments around. -/
def memberKey : Reader (List String) := fun text => do
  let (path, rest) ← dottedKey text
  match ← skipBlank? false rest with
  | '=' :: rest => return (path, ← skipBlank? false rest)
  | _ => none

/-! ## Values -/

/-- Read what follows an element: a comma, or the bracket that ends the sequence; whether it was
a comma. -/
def separator (close : Char) : Reader Bool := fun text =>
  match skipBlank? false text with
  | some (c :: rest) =>
    if c = ',' then some (true, rest) else if c = close then some (false, rest) else none
  | _ => none

mutual

/-- Read a value that may open `depth` brackets. -/
def value (depth : Nat) (text : List Char) : Option (Toml × List Char) :=
  match text with
  | [] => none
  | c :: rest =>
    if c = '"' ∨ c = '\'' then
      (quoted (c :: rest)).map fun (content, behind) => (.string content, behind)
    else if c = '[' then
      match depth with
      | 0 => none
      | depth + 1 =>
        (elements depth rest).map fun (items, behind) => (.array items, behind)
    else if c = '\x7b' then
      match depth with
      | 0 => none
      | depth + 1 =>
        match members depth rest with
        | none => none
        | some (pairs, behind) =>
          (insertAll? pairs []).map fun entries => (.table (closeAll entries), behind)
    else scalar (c :: rest)
termination_by 2 * text.length
decreasing_by all_goals simp only [List.length_cons]; omega

/-- Read the elements of an array up to its closing bracket, from behind a bracket or a comma. -/
def elements (depth : Nat) (text : List Char) : Option (List Toml × List Char) :=
  match blankSkipped? text with
  | none => none
  | some ⟨start, _⟩ =>
    if start.head? = some ']' then some ([], start.tail)
    else
      match taken? start (value depth start) with
      | none => none
      | some ⟨item, behind, _⟩ =>
        match taken? behind (separator ']' behind) with
        | none => none
        | some ⟨false, rest, _⟩ => some ([item], rest)
        | some ⟨true, rest, _⟩ =>
          (elements depth rest).map fun (items, behind) => (item :: items, behind)
termination_by 2 * text.length + 1
decreasing_by all_goals omega

def members (depth : Nat) (text : List Char) : Option (List (List String × Toml) × List Char) :=
  match blankSkipped? text with
  | none => none
  | some ⟨start, _⟩ =>
    if start.head? = some '\x7d' then some ([], start.tail)
    else
      match taken? start (memberKey start) with
      | none => none
      | some ⟨path, valueStart, _⟩ =>
        match taken? valueStart (value depth valueStart) with
        | none => none
        | some ⟨member, behind, _⟩ =>
          match taken? behind (separator '\x7d' behind) with
          | none => none
          | some ⟨false, rest, _⟩ => some ([(path, member)], rest)
          | some ⟨true, rest, _⟩ =>
            (members depth rest).map fun (pairs, behind) => ((path, member) :: pairs, behind)
termination_by 2 * text.length + 1
decreasing_by all_goals omega

end

/-! ## Lines -/

/-- What a line of a document says. -/
inductive Statement where
  | table (path : List String)
  /-- A table of an array of tables starts here. -/
  | element (path : List String)
  | pair (path : List String) (value : Toml)
deriving Repr

def statement : Reader Statement
  | '[' :: '[' :: rest => do
    let (path, rest) ← dottedKey (skipSpace rest)
    match rest with
    | ']' :: ']' :: rest => return (.element path, rest)
    | _ => none
  | '[' :: rest => do
    let (path, rest) ← dottedKey (skipSpace rest)
    match rest with
    | ']' :: rest => return (.table path, rest)
    | _ => none
  | text => do
    let (path, rest) ← keyBeforeEquals text
    let (value, rest) ← value maxNesting rest
    return (.pair path value, rest)

def lineEnd : Reader Unit := fun text =>
  (skipLineEnd? text).map fun rest => ((), rest)

def statements (text : List Char) : Option (List Statement) :=
  match blankSkipped? text with
  | none => none
  | some ⟨start, _⟩ =>
    if start.isEmpty then some []
    else
      match taken? start (statement start) with
      | none => none
      | some ⟨first, behind, _⟩ =>
        match taken? start (lineEnd behind) with
        | none => none
        | some ⟨_, next, _⟩ => (statements next).map (first :: ·)
termination_by text.length
decreasing_by omega

/-! ## Documents -/

/-- The tables of a document while it is read. -/
structure Draft where
  header : List String
  root : Open

def Draft.extend? (draft : Draft) : Statement → Option Draft
  | .table path => (openTable? path draft.root).map (Draft.mk path)
  | .element path => (openElement? path draft.root).map (Draft.mk path)
  | .pair path value =>
    (insertUnder? draft.header path value draft.root).map (Draft.mk draft.header)

/-- The characters of a text without the byte order mark that may stand in front. -/
def dropMark : List Char → List Char
  | '\uFEFF' :: rest => rest
  | text => text

def parse? (text : String) : Option (List (String × Toml)) := do
  let lines ← statements (dropMark text.toList)
  let draft ← lines.foldlM Draft.extend? ⟨[], []⟩
  return closeAll draft.root

end TreeGen.Toml
