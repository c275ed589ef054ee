import TreeGen.Json.Numeral
import TreeGen.Json.Quoted
import TreeGen.Text.Character

/-!
# The tokens of a JSON text

A text is a sequence of tokens with white space and comments between them.  Comments run from two
slashes to the line feed, or from a slash and a star to a star and a slash.  Besides the tokens of
standard JSON there are strings in single quotes and bare words.

Scanning takes at least one character at every step, so it ends; it stops at the first fault and
keeps the tokens before it, because a reader may object to one of those first.
-/

namespace TreeGen.Json

open Text

inductive Token where
  | openBrace
  | closeBrace
  | openBracket
  | closeBracket
  | comma
  | colon
  | string (value : String)
  | word (text : String)
  | number (source : String)
  | boolean (value : Bool)
  | null
deriving DecidableEq, Repr

/-- A token and the text from its first character on. -/
structure Lexeme where
  token : Token
  start : List Char
deriving Repr

/-- The text behind the end of a block comment, from inside the comment. -/
def afterBlockComment? : List Char → Option (List Char)
  | [] => none
  | '*' :: '/' :: rest => some rest
  | _ :: rest => afterBlockComment? rest

/-- Read a bare word: everything up to white space or a colon, as long as it consists of letters,
digits and hyphens.  `start` is the text from the word's first character on. -/
def wordBody (start : List Char) : List Char → Reading (List Char)
  | [] => .ok ([], [])
  | c :: rest =>
    if isBlank c ∨ c = ':' then .ok ([], c :: rest)
    else if isAlphanumeric c ∨ c = '-' then
      Reading.mapValue (c :: ·) (wordBody start rest)
    else .error ⟨.unexpectedToken, start⟩

/-- The text behind a keyword, if the text starts with it and no letter or digit follows. -/
def afterKeyword? (keyword text : List Char) : Option (List Char) :=
  if keyword.isPrefixOf text then
    match text.drop keyword.length with
    | [] => some []
    | c :: rest => if isAlphanumeric c then none else some (c :: rest)
  else none

def keywordOrWord (text : List Char) : Reading Token :=
  match afterKeyword? "true".toList text with
  | some rest => .ok (.boolean true, rest)
  | none =>
    match afterKeyword? "false".toList text with
    | some rest => .ok (.boolean false, rest)
    | none =>
      match afterKeyword? "null".toList text with
      | some rest => .ok (.null, rest)
      | none =>
        match wordBody text text with
        | .error fault => .error fault
        | .ok ([], _) => .error ⟨.unexpectedToken, text⟩
        | .ok (inside, behind) => .ok (.word (String.ofList inside), behind)

def punctuation? (c : Char) : Option Token :=
  match c with
  | '{' => some .openBrace
  | '}' => some .closeBrace
  | '[' => some .openBracket
  | ']' => some .closeBracket
  | ',' => some .comma
  | ':' => some .colon
  | _ => none

/-- The text behind a comment whose slash stands right before `rest`. -/
def comment (rest : List Char) : Except Fault (List Char) :=
  match rest with
  | '/' :: inside => .ok (inside.dropWhile (· ≠ '\n'))
  | '*' :: inside =>
    match afterBlockComment? inside with
    | some behind => .ok behind
    | none => .error ⟨.unterminatedComment, '/' :: rest⟩
  | _ => .error ⟨.unexpectedToken, '/' :: rest⟩

/-- Read one token or one comment from a text that starts with `c`; a comment gives no token. -/
def scan (c : Char) (rest : List Char) : Reading (Option Token) :=
  match punctuation? c with
  | some token => .ok (some token, rest)
  | none =>
    if c = '"' ∨ c = '\'' then
      Reading.mapValue (fun inside => some (.string (String.ofList inside)))
        (Quoted.body c (c :: rest) rest)
    else if c = '/' then
      match comment rest with
      | .ok behind => .ok (none, behind)
      | .error fault => .error fault
    else if c = '-' ∨ c.isDigit then
      Reading.mapValue (fun source => some (.number (String.ofList source)))
        (Numeral.read (c :: rest))
    else Reading.mapValue some (keywordOrWord (c :: rest))

/-! ## Scanning takes something -/

theorem afterBlockComment?_length_le
    {text behind : List Char}
    (h : afterBlockComment? text = some behind) :
    behind.length ≤ text.length := by
  fun_induction afterBlockComment? text with
  | case1 => simp at h
  | case2 rest =>
    simp only [Option.some.injEq] at h
    simp only [← h, List.length_cons]
    omega
  | case3 c rest _ ih =>
    have := ih h
    simp only [List.length_cons]
    omega

theorem wordBody_eq_append
    {start text inside behind : List Char}
    (h : wordBody start text = .ok (inside, behind)) :
    text = inside ++ behind := by
  induction text generalizing inside with
  | nil =>
    simp only [wordBody, Except.ok.injEq, Prod.mk.injEq] at h
    simp [← h.1, ← h.2]
  | cons c rest ih =>
    unfold wordBody at h
    split at h
    · simp only [Except.ok.injEq, Prod.mk.injEq] at h
      simp [← h.1, ← h.2]
    · split at h
      · obtain ⟨_, hbody, rfl⟩ := (Reading.mapValue_eq_ok_iff ..).1 h
        simp [ih hbody]
      · simp at h

theorem afterKeyword?_length_le
    {keyword text behind : List Char}
    (h : afterKeyword? keyword text = some behind) :
    behind.length ≤ text.length - keyword.length := by
  unfold afterKeyword? at h
  split at h
  · have hlength : (text.drop keyword.length).length = text.length - keyword.length :=
      List.length_drop
    split at h
    · simp only [Option.some.injEq] at h
      simp [← h]
    · rename_i hdrop
      split at h
      · simp at h
      · simp only [Option.some.injEq] at h
        rw [hdrop, h] at hlength
        exact Nat.le_of_eq hlength
  · simp at h

theorem keywordOrWord_length_lt
    {c : Char} {rest behind : List Char} {token : Token}
    (h : keywordOrWord (c :: rest) = .ok (token, behind)) :
    behind.length < (c :: rest).length := by
  unfold keywordOrWord at h
  have keyword_case
      (keyword : List Char)
      (hpos : 0 < keyword.length)
      {after : List Char}
      (hafter : afterKeyword? keyword (c :: rest) = some after) :
      after.length < (c :: rest).length := by
    have := afterKeyword?_length_le hafter
    have : 0 < (c :: rest).length := by simp
    omega
  split at h
  · rename_i after hafter
    simp only [Except.ok.injEq, Prod.mk.injEq] at h
    exact h.2 ▸ keyword_case _ (by decide) hafter
  · split at h
    · rename_i after hafter
      simp only [Except.ok.injEq, Prod.mk.injEq] at h
      exact h.2 ▸ keyword_case _ (by decide) hafter
    · split at h
      · rename_i after hafter
        simp only [Except.ok.injEq, Prod.mk.injEq] at h
        exact h.2 ▸ keyword_case _ (by decide) hafter
      · split at h
        · simp at h
        · simp at h
        · rename_i inside behind' hne hword
          simp only [Except.ok.injEq, Prod.mk.injEq] at h
          rw [← h.2, wordBody_eq_append hword, List.length_append]
          have : 0 < inside.length :=
            List.length_pos_iff.2 hne
          omega

theorem comment_length_le
    {rest behind : List Char}
    (h : comment rest = .ok behind) :
    behind.length ≤ rest.length := by
  unfold comment at h
  split at h
  · rename_i inside
    simp only [Except.ok.injEq] at h
    have := (List.dropWhile_sublist (l := inside) (· ≠ '\n')).length_le
    rw [← h]
    simp only [List.length_cons]
    omega
  · split at h
    · rename_i hinside
      simp only [Except.ok.injEq] at h
      have := afterBlockComment?_length_le hinside
      rw [← h]
      simp only [List.length_cons]
      omega
    · simp at h
  · simp at h

theorem scan_length_le
    {c : Char} {rest behind : List Char} {token? : Option Token}
    (h : scan c rest = .ok (token?, behind)) :
    behind.length ≤ rest.length := by
  unfold scan at h
  split at h
  · simp only [Except.ok.injEq, Prod.mk.injEq] at h
    simp [← h.2]
  · split at h
    · obtain ⟨_, hbody, _⟩ := (Reading.mapValue_eq_ok_iff ..).1 h
      exact Nat.le_of_lt (Quoted.body_length_lt _ _ _ _ _ hbody)
    · split at h
      · split at h
        · rename_i hcomment
          simp only [Except.ok.injEq, Prod.mk.injEq] at h
          exact h.2 ▸ comment_length_le hcomment
        · simp at h
      · split at h
        · obtain ⟨source, hread, _⟩ := (Reading.mapValue_eq_ok_iff ..).1 h
          obtain ⟨happend, hne⟩ := Numeral.read_eq_append hread
          have hlength := congrArg List.length happend
          have := List.length_pos_iff.2 hne
          simp only [List.length_cons, List.length_append] at hlength
          omega
        · obtain ⟨token, hword, _⟩ := (Reading.mapValue_eq_ok_iff ..).1 h
          exact Nat.le_of_lt_succ (keywordOrWord_length_lt hword)

/-! ## The tokens of a whole text -/

/-- The tokens of a text up to its end or to the first fault. -/
structure Scan where
  lexemes : List Lexeme
  /-- What ended the scan before the end of the text. -/
  fault? : Option Fault
deriving Repr

def Scan.cons (lexeme : Lexeme) (scan : Scan) : Scan :=
  { scan with lexemes := lexeme :: scan.lexemes }

def lex : List Char → Scan
  | [] => ⟨[], none⟩
  | c :: rest =>
    if isBlank c then lex rest
    else
      match h : scan c rest with
      | .error fault => ⟨[], some fault⟩
      | .ok (none, behind) =>
        have := scan_length_le h
        lex behind
      | .ok (some token, behind) =>
        have := scan_length_le h
        (lex behind).cons ⟨token, c :: rest⟩
termination_by text => text.length

end TreeGen.Json
