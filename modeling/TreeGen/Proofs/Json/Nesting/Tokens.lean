import TreeGen.Proofs.Json.Lexeme
import TreeGen.Proofs.Json.Nesting.Characters

/-!
# What the nesting scan makes of a token

The nesting scan knows no grammar, yet it stays in step with the tokens of a text: it passes over a
string, a comment and a bare token as a whole, and it counts every bracket that is a token of its
own.  So on a text without a fault it finds what counting the bracket tokens finds, and on any text
it finds whatever that count finds among the tokens before the fault.
-/

namespace TreeGen.Json

open Text

namespace Nesting

/-- The text from the first token on that takes the nesting above `limit`, where `depth` brackets
are open before the tokens. -/
def overrun? (limit depth : Nat) : List Lexeme → Option (List Char)
  | [] => none
  | lexeme :: lexemes =>
    if lexeme.token.opens ∧ depth + 1 > limit then some lexeme.start
    else overrun? limit (lexeme.token.depthAfter depth) lexemes

end Nesting

namespace Nesting.Characters

/-! ## Characters that mean nothing to the scan -/

def isMark (c : Char) : Bool :=
  c == '"' || c == '\'' || c == '/' || c == '[' || c == '{' || c == ']' || c == '}'

theorem eq_of_isMark {c : Char} (h : isMark c) :
    c = '"' ∨ c = '\'' ∨ c = '/' ∨ c = '[' ∨ c = '{' ∨ c = ']' ∨ c = '}' := by
  simpa [isMark, or_assoc] using h

theorem not_isMark_of_isBlank {c : Char} (h : isBlank c) : isMark c = false := by
  cases hmark : isMark c with
  | false => rfl
  | true =>
      rcases eq_of_isMark hmark with rfl | rfl | rfl | rfl | rfl | rfl | rfl <;>
        exact absurd h (by decide)

theorem not_isMark_of_isBare {c : Char} (h : isBare c) : isMark c = false := by
  cases hmark : isMark c with
  | false => rfl
  | true =>
      rcases eq_of_isMark hmark with rfl | rfl | rfl | rfl | rfl | rfl | rfl <;>
        exact absurd h (by decide)

theorem excess?_cons_of_not_isMark
    {c : Char} (h : isMark c = false) (limit depth : Nat) (rest : List Char) :
    excess? limit depth (c :: rest) = excess? limit depth rest := by
  simp only [isMark, Bool.or_eq_false_iff, beq_eq_false_iff_ne] at h
  obtain ⟨⟨⟨⟨⟨⟨hdouble, hsingle⟩, hslash⟩, hbracket⟩, hbrace⟩, hbracket'⟩, hbrace'⟩ := h
  rw [excess?, if_neg (by simp [hdouble, hsingle]), if_neg (by simp [hslash]),
    if_neg (by simp [hslash]), if_neg (by simp [hbracket, hbrace]),
    if_neg (by simp [hbracket', hbrace'])]

theorem excess?_append_of_not_isMark
    {inside : List Char} (h : ∀ c ∈ inside, isMark c = false)
    (limit depth : Nat) (rest : List Char) :
    excess? limit depth (inside ++ rest) = excess? limit depth rest := by
  induction inside with
  | nil => rfl
  | cons c inside ih =>
      rw [List.cons_append, excess?_cons_of_not_isMark (h c List.mem_cons_self)]
      exact ih fun c hc => h c (List.mem_cons_of_mem _ hc)

/-! ## Strings -/

theorem afterString_quote (quote : Char) (rest : List Char) :
    afterString quote (quote :: rest) = rest := by
  cases rest with
  | nil => rfl
  | cons hidden rest => rw [afterString, if_pos rfl]

theorem afterString_pass
    {quote c : Char} (hquote : c ≠ quote) (hslash : c ≠ '\\') (rest : List Char) :
    afterString quote (c :: rest) = afterString quote rest := by
  cases rest with
  | nil => rfl
  | cons hidden rest => rw [afterString, if_neg hquote, if_neg hslash]

theorem afterString_escape
    {quote : Char} (hquote : quote ≠ '\\') (hidden : Char) (rest : List Char) :
    afterString quote ('\\' :: hidden :: rest) = afterString quote rest := by
  rw [afterString, if_neg hquote.symm, if_pos rfl]

theorem ne_of_hexValue?_eq_some
    {c : Char} {value : Nat} (h : hexValue? c = some value) :
    c ≠ '"' ∧ c ≠ '\'' ∧ c ≠ '\\' := by
  refine ⟨?_, ?_, ?_⟩
  · rintro rfl
    simp [show hexValue? '"' = none by decide] at h
  · rintro rfl
    simp [show hexValue? '\'' = none by decide] at h
  · rintro rfl
    simp [show hexValue? '\\' = none by decide] at h

theorem exists_hexValues_of_codePoint_eq_ok
    {a b c d character : Char} (h : Quoted.codePoint [a, b, c, d] = .ok character) :
    ∃ a' b' c' d', hexValue? a = some a' ∧ hexValue? b = some b' ∧ hexValue? c = some c' ∧
      hexValue? d = some d' := by
  unfold Quoted.codePoint at h
  split at h
  · simp at h
  · rename_i code hcode
    cases ha : hexValue? a with
    | none => simp [hexNumber?, ha] at hcode
    | some a' =>
        cases hb : hexValue? b with
        | none => simp [hexNumber?, ha, hb] at hcode
        | some b' =>
            cases hc : hexValue? c with
            | none => simp [hexNumber?, ha, hb, hc] at hcode
            | some c' =>
                cases hd : hexValue? d with
                | none => simp [hexNumber?, ha, hb, hc, hd] at hcode
                | some d' => exact ⟨a', b', c', d', rfl, rfl, rfl, rfl⟩

/-- The scan takes a string to end where reading it ends. -/
theorem afterString_of_body
    {quote : Char} (hquote : quote = '"' ∨ quote = '\'')
    {start text inside behind : List Char}
    (h : Quoted.body quote start text = .ok (inside, behind)) :
    afterString quote text = behind := by
  have hne : quote ≠ '\\' := by rcases hquote with rfl | rfl <;> decide
  have hpass : ∀ {c : Char} {value : Nat} (rest : List Char), hexValue? c = some value →
      afterString quote (c :: rest) = afterString quote rest := by
    intro c value rest hvalue
    obtain ⟨hdouble, hsingle, hslash⟩ := ne_of_hexValue?_eq_some hvalue
    refine afterString_pass ?_ hslash rest
    rcases hquote with rfl | rfl
    · exact hdouble
    · exact hsingle
  fun_induction Quoted.body quote start text generalizing inside with
  | case1 => simp at h
  | case2 => simp at h
  | case3 => simp at h
  | case4 a b c d rest character hcode ih =>
      obtain ⟨tail, hbody, -⟩ := (Reading.mapValue_eq_ok_iff ..).1 h
      obtain ⟨a', b', c', d', ha, hb, hc, hd⟩ := exists_hexValues_of_codePoint_eq_ok hcode
      rw [afterString_escape hne, hpass _ ha, hpass _ hb, hpass _ hc, hpass _ hd]
      exact ih hbody
  | case5 => simp at h
  | case6 => simp at h
  | case7 c rest _ _ character _ ih =>
      obtain ⟨tail, hbody, -⟩ := (Reading.mapValue_eq_ok_iff ..).1 h
      rw [afterString_escape hne]
      exact ih hbody
  | case8 rest =>
      simp only [Except.ok.injEq, Prod.mk.injEq] at h
      rw [afterString_quote, h.2]
  | case9 c rest hlast _ _ hescape hcQuote ih =>
      obtain ⟨tail, hbody, -⟩ := (Reading.mapValue_eq_ok_iff ..).1 h
      have hslash : c ≠ '\\' := by
        rintro rfl
        cases rest with
        | nil => exact hlast rfl rfl
        | cons first rest => exact hescape first rest rfl rfl
      rw [afterString_pass hcQuote hslash]
      exact ih hbody

/-! ## Comments -/

theorem excess?_afterLine (limit depth : Nat) (text : List Char) :
    excess? limit depth (afterLine text) =
      excess? limit depth (text.dropWhile (· ≠ '\n')) := by
  induction text with
  | nil => rfl
  | cons c rest ih =>
      by_cases hc : c = '\n'
      · subst hc
        rw [afterLine, if_pos rfl, List.dropWhile_cons_of_neg (by simp)]
        exact (excess?_cons_of_not_isMark (by decide) limit depth rest).symm
      · rw [afterLine, if_neg hc, List.dropWhile_cons_of_pos (by simpa using hc), ih]

theorem afterBlock_of_afterBlockComment?
    {text behind : List Char} (h : afterBlockComment? text = some behind) :
    afterBlock text = behind := by
  fun_induction afterBlockComment? text with
  | case1 => simp at h
  | case2 rest =>
      rw [afterBlock, if_pos ⟨rfl, rfl⟩]
      exact Option.some.inj h
  | case3 c rest hend ih =>
      rw [afterBlock, if_neg]
      · exact ih h
      · rintro ⟨rfl, hslash⟩
        obtain ⟨tail, rfl⟩ := List.head?_eq_some_iff.mp hslash
        exact hend tail rfl rfl

theorem excess?_of_comment
    {rest behind : List Char} (h : comment rest = .ok behind) (limit depth : Nat) :
    excess? limit depth ('/' :: rest) = excess? limit depth behind := by
  unfold comment at h
  split at h
  · rename_i inside
    simp only [Except.ok.injEq] at h
    rw [excess?, if_neg (by decide), if_pos ⟨rfl, rfl⟩, afterLine, if_neg (by decide),
      excess?_afterLine, h]
  · rename_i inside
    split at h
    · rename_i after hafter
      simp only [Except.ok.injEq] at h
      rw [excess?, if_neg (by decide), if_neg (by simp), if_pos ⟨rfl, rfl⟩, List.tail_cons,
        afterBlock_of_afterBlockComment? hafter, h]
    · simp at h
  · simp at h

/-! ## Tokens -/

theorem excess?_of_punctuation
    {c : Char} {token : Token} (h : punctuation? c = some token)
    (limit depth : Nat) (rest : List Char) :
    excess? limit depth (c :: rest) =
      if token.opens ∧ depth + 1 > limit then some (c :: rest)
      else excess? limit (token.depthAfter depth) rest := by
  unfold punctuation? at h
  split at h <;> simp only [Option.some.injEq, reduceCtorEq] at h <;> subst h
  all_goals
    rw [excess?]
    simp [Token.opens, Token.depthAfter]

/-- The scan passes over a token that is no bracket and counts one that is. -/
theorem excess?_of_scan_token
    {c : Char} {rest behind : List Char} {token : Token}
    (h : scan c rest = .ok (some token, behind)) (limit depth : Nat) :
    excess? limit depth (c :: rest) =
      if token.opens ∧ depth + 1 > limit then some (c :: rest)
      else excess? limit (token.depthAfter depth) behind := by
  cases Scanned.of_scan h with
  | punctuation rest htoken => exact excess?_of_punctuation htoken limit depth rest
  | @string c rest inside behind hquote hbody =>
      rw [excess?, if_pos hquote, afterString_of_body hquote hbody, if_neg (by simp [Token.opens])]
      rfl
  | bare inside happend hne hbare htoken =>
      have hscalar := Token.isScalar_of_isBare htoken
      rw [happend, excess?_append_of_not_isMark fun c hc => not_isMark_of_isBare (hbare c hc),
        if_neg (by simp [Token.opens_of_isScalar hscalar]), Token.depthAfter_of_isScalar hscalar]

theorem excess?_of_scan_comment
    {c : Char} {rest behind : List Char}
    (h : scan c rest = .ok (none, behind)) (limit depth : Nat) :
    excess? limit depth (c :: rest) = excess? limit depth behind := by
  cases Scanned.of_scan h with
  | comment hcomment => exact excess?_of_comment hcomment limit depth

/-- The scan finds the first bracket token that nests too deeply.  Behind a fault it may find
something else, but only when there is no such token. -/
theorem exists_excess?_eq (limit depth : Nat) (text : List Char) :
    ∃ beyond, excess? limit depth text =
        (overrun? limit depth (lex text).lexemes).or beyond ∧
      ((lex text).fault? = none → beyond = none) := by
  induction text using lex.induct generalizing depth with
  | case1 => exact ⟨none, by simp [excess?, lex_nil, overrun?], fun _ => rfl⟩
  | case2 c rest hc ih =>
      rw [excess?_cons_of_not_isMark (not_isMark_of_isBlank hc), lex_of_isBlank hc]
      exact ih depth
  | case3 c rest hc fault h =>
      rw [lex_of_fault hc h]
      exact ⟨excess? limit depth (c :: rest), rfl, fun h => by simp at h⟩
  | case4 c rest hc behind h _ ih =>
      rw [excess?_of_scan_comment h, lex_of_comment hc h]
      exact ih depth
  | case5 c rest hc token behind h _ ih =>
      obtain ⟨beyond, hexcess, hbeyond⟩ := ih (token.depthAfter depth)
      refine ⟨beyond, ?_, ?_⟩
      · rw [excess?_of_scan_token h, lex_of_token hc h, Scan.cons, overrun?]
        by_cases hover : token.opens ∧ depth + 1 > limit
        · rw [if_pos hover, if_pos hover, Option.some_or]
        · rw [if_neg hover, if_neg hover, hexcess]
      · rw [lex_of_token hc h]
        exact hbeyond

end Nesting.Characters

end TreeGen.Json
