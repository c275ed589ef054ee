import TreeGen.Json.Reading
import TreeGen.Text.Character

/-!
# Quoted strings

A string stands between two quotes of one kind, double or single.  Inside, a backslash introduces
an escape: a short one, a code point of four hexadecimal digits, or the quote itself.  All other
characters, line feeds and control characters included, stand for themselves.
-/

namespace TreeGen.Json.Quoted

open Text

def codePoint (digits : List Char) : Except Problem Char :=
  match hexNumber? digits with
  | none => .error .hexDigitsExpected
  | some code =>
    match character? code with
    | some character => .ok character
    | none => .error (.noCharacter (String.ofList digits))

/-- The character that a backslash and one more character stand for, in a string between the given
quotes. -/
def shortEscape (quote c : Char) : Except Problem Char :=
  match c with
  | '\\' => .ok '\\'
  | '/' => .ok '/'
  | 'b' => .ok '\x08'
  | 'f' => .ok '\x0c'
  | 'n' => .ok '\n'
  | 'r' => .ok '\r'
  | 't' => .ok '\t'
  | '"' => if quote = '"' then .ok '"' else .error .escapeInSingleQuotes
  | '\'' => if quote = '"' then .error .escapeInDoubleQuotes else .ok '\''
  | _ => .error .unknownEscape

/-- Read the inside of a string up to its closing quote: the characters that it stands for and the
text behind the quote.  `start` is the text from the opening quote on. -/
def body (quote : Char) (start : List Char) : List Char → Reading (List Char)
  | [] => .error ⟨.unterminatedString, start⟩
  | ['\\'] => .error ⟨.unterminatedString, start⟩
  | '\\' :: 'u' :: a :: b :: c :: d :: rest =>
    match codePoint [a, b, c, d] with
    | .error problem => .error ⟨problem, '\\' :: 'u' :: a :: b :: c :: d :: rest⟩
    | .ok character => Reading.mapValue (character :: ·) (body quote start rest)
  | '\\' :: 'u' :: rest => .error ⟨.hexDigitsExpected, '\\' :: 'u' :: rest⟩
  | '\\' :: c :: rest =>
    match shortEscape quote c with
    | .error problem => .error ⟨problem, '\\' :: c :: rest⟩
    | .ok character => Reading.mapValue (character :: ·) (body quote start rest)
  | c :: rest =>
    if c = quote then .ok ([], rest)
    else Reading.mapValue (c :: ·) (body quote start rest)

theorem body_length_lt
    (quote : Char)
    (start text inside behind : List Char)
    (h : body quote start text = .ok (inside, behind)) :
    behind.length < text.length := by
  fun_induction body quote start text generalizing inside behind with
  | case1 => simp at h
  | case2 => simp at h
  | case3 => simp at h
  | case4 a b c d rest character _ ih =>
    obtain ⟨_, hbody, _⟩ := (Reading.mapValue_eq_ok_iff ..).1 h
    have := ih _ _ hbody
    simp only [List.length_cons]
    omega
  | case5 => simp at h
  | case6 => simp at h
  | case7 c rest _ _ character _ ih =>
    obtain ⟨_, hbody, _⟩ := (Reading.mapValue_eq_ok_iff ..).1 h
    have := ih _ _ hbody
    simp only [List.length_cons]
    omega
  | case8 rest =>
    simp only [Except.ok.injEq, Prod.mk.injEq] at h
    simp [← h.2]
  | case9 c rest _ _ _ _ _ ih =>
    obtain ⟨_, hbody, _⟩ := (Reading.mapValue_eq_ok_iff ..).1 h
    have := ih _ _ hbody
    simp only [List.length_cons]
    omega

end TreeGen.Json.Quoted
