import TreeGen.Json.Lexeme

/-!
# What one step of the scan takes

A step of the scan takes a punctuation mark, a quoted string, a comment or a bare token: a number,
a keyword or a word.  A bare token consists of letters, digits and a few signs, so nothing inside it
can be mistaken for a quote, a slash or a bracket.
-/

namespace TreeGen.Json

open Text

/-! ## The first step of a scan -/

theorem lex_nil : lex [] = ⟨[], none⟩ := by
  rw [lex]

theorem lex_of_isBlank {c : Char} (hc : isBlank c) (rest : List Char) :
    lex (c :: rest) = lex rest := by
  rw [lex, if_pos hc]

theorem lex_of_fault
    {c : Char} {rest : List Char} {fault : Fault}
    (hc : ¬ isBlank c) (h : scan c rest = .error fault) :
    lex (c :: rest) = ⟨[], some fault⟩ := by
  rw [lex, if_neg hc]
  split <;> simp_all

theorem lex_of_comment
    {c : Char} {rest behind : List Char}
    (hc : ¬ isBlank c) (h : scan c rest = .ok (none, behind)) :
    lex (c :: rest) = lex behind := by
  rw [lex, if_neg hc]
  split <;> simp_all

theorem lex_of_token
    {c : Char} {rest behind : List Char} {token : Token}
    (hc : ¬ isBlank c) (h : scan c rest = .ok (some token, behind)) :
    lex (c :: rest) = (lex behind).cons ⟨token, c :: rest⟩ := by
  rw [lex, if_neg hc]
  split <;> simp_all

theorem length_lexemes_le (text : List Char) :
    (lex text).lexemes.length ≤ text.length := by
  induction text using lex.induct with
  | case1 => simp [lex_nil]
  | case2 c rest hc ih =>
      rw [lex_of_isBlank hc, List.length_cons]
      omega
  | case3 c rest hc fault h =>
      rw [lex_of_fault hc h]
      simp
  | case4 c rest hc behind h hle ih =>
      rw [lex_of_comment hc h, List.length_cons]
      omega
  | case5 c rest hc token behind h hle ih =>
      rw [lex_of_token hc h, Scan.cons, List.length_cons, List.length_cons]
      omega

/-! ## The brackets among the tokens -/

namespace Token

def opens : Token → Bool
  | .openBrace | .openBracket => true
  | _ => false

/-- The number of open brackets behind a token, where `depth` are open before it. -/
def depthAfter (depth : Nat) : Token → Nat
  | .openBrace | .openBracket => depth + 1
  | .closeBrace | .closeBracket => depth - 1
  | _ => depth

def isBare : Token → Bool
  | .word _ | .number _ | .boolean _ | .null => true
  | _ => false

def isScalar : Token → Bool
  | .string _ => true
  | token => token.isBare

theorem isScalar_of_isBare {token : Token} (h : token.isBare) : token.isScalar := by
  cases token <;> simp_all [isScalar, isBare]

theorem opens_of_isScalar {token : Token} (h : token.isScalar) : token.opens = false := by
  cases token <;> simp_all [isScalar, isBare, opens]

theorem depthAfter_of_isScalar {token : Token} (h : token.isScalar) (depth : Nat) :
    token.depthAfter depth = depth := by
  cases token <;> simp_all [isScalar, isBare, depthAfter]

theorem depthAfter_le_of_not_opens {token : Token} (h : token.opens = false) (depth : Nat) :
    token.depthAfter depth ≤ depth := by
  cases token <;> simp_all [opens, depthAfter]

theorem depthAfter_le (token : Token) (depth : Nat) : token.depthAfter depth ≤ depth + 1 := by
  cases token <;> simp only [depthAfter] <;> omega

/-- A token that does not take the nesting above the limit keeps it. -/
theorem depthAfter_le_limit
    {token : Token} {limit depth : Nat}
    (h : ¬ (token.opens ∧ depth + 1 > limit)) (hdepth : depth ≤ limit) :
    token.depthAfter depth ≤ limit := by
  cases hopens : token.opens with
  | false => exact Nat.le_trans (depthAfter_le_of_not_opens hopens depth) hdepth
  | true =>
      have hnot : ¬ depth + 1 > limit := fun hover => h ⟨hopens, hover⟩
      have hle := depthAfter_le token depth
      omega

theorem depthAfter_of_opens {token : Token} (h : token.opens) (depth : Nat) :
    token.depthAfter depth = depth + 1 := by
  cases token <;> simp_all [opens, depthAfter]

end Token

/-! ## Bare tokens -/

/-- The characters of numbers, keywords and words. -/
def isBare (c : Char) : Bool :=
  isAlphanumeric c || c == '-' || c == '+' || c == '.'

theorem isBare_of_isDigit {c : Char} (h : c.isDigit) : isBare c := by
  have hle : c.toNat ≤ 57 := by
    simp only [Char.isDigit, Bool.and_eq_true, decide_eq_true_eq, UInt32.le_iff_toNat_le] at h
    exact h.2
  have hlow : c.toNat < 128 := by omega
  simp [isBare, isAlphanumeric, hlow, Char.isAlphanum, h]

theorem isBare_of_mem_digits (text : List Char) {c : Char}
    (hc : c ∈ (Numeral.digits text).1) : isBare c := by
  have hall := List.all_takeWhile (l := text) (p := Char.isDigit)
  exact isBare_of_isDigit (List.all_eq_true.mp hall c hc)

theorem isBare_of_mem_sign {text : List Char} {c : Char}
    (hc : c ∈ (Numeral.sign text).1) : isBare c := by
  unfold Numeral.sign at hc
  split at hc
  · rw [List.mem_singleton.mp hc]
    decide
  · simp at hc

theorem isBare_of_mem_whole
    {text units rest : List Char} (h : Numeral.whole text = .ok (units, rest))
    {c : Char} (hc : c ∈ units) : isBare c := by
  unfold Numeral.whole at h
  split at h
  · simp only [Except.ok.injEq, Prod.mk.injEq] at h
    rw [← h.1, List.mem_singleton] at hc
    rw [hc]
    decide
  · split at h
    · simp at h
    · simp only [Except.ok.injEq] at h
      exact isBare_of_mem_digits text (by rw [h]; exact hc)

theorem isBare_of_mem_fraction
    {text places rest : List Char} (h : Numeral.fraction text = .ok (places, rest))
    {c : Char} (hc : c ∈ places) : isBare c := by
  unfold Numeral.fraction at h
  split at h
  · rename_i tail
    split at h
    · simp at h
    · rename_i inner behind _ hdigits
      simp only [Except.ok.injEq, Prod.mk.injEq] at h
      rw [← h.1, List.mem_cons] at hc
      rcases hc with rfl | hc
      · decide
      · exact isBare_of_mem_digits tail (by rw [hdigits]; exact hc)
  · simp only [Except.ok.injEq, Prod.mk.injEq] at h
    simp [← h.1] at hc

theorem isBare_of_mem_exponentBody
    {text scale rest : List Char} (h : Numeral.exponentBody text = .ok (scale, rest))
    {c : Char} (hc : c ∈ scale) : isBare c := by
  unfold Numeral.exponentBody at h
  split at h
  · simp at h
  · rename_i mark tail
    split at h
    · rename_i hmark
      split at h
      · simp at h
      · rename_i inner behind _ hdigits
        simp only [Except.ok.injEq, Prod.mk.injEq] at h
        rw [← h.1, List.mem_cons] at hc
        rcases hc with rfl | hc
        · rcases hmark with rfl | rfl <;> decide
        · exact isBare_of_mem_digits tail (by rw [hdigits]; exact hc)
    · split at h
      · simp at h
      · simp only [Except.ok.injEq] at h
        exact isBare_of_mem_digits (mark :: tail) (by rw [h]; exact hc)

theorem isBare_of_mem_exponent
    {text scale rest : List Char} (h : Numeral.exponent text = .ok (scale, rest))
    {c : Char} (hc : c ∈ scale) : isBare c := by
  unfold Numeral.exponent at h
  split at h
  · simp only [Except.ok.injEq, Prod.mk.injEq] at h
    simp [← h.1] at hc
  · split at h
    · rename_i hmark
      obtain ⟨inner, hbody, rfl⟩ := (Reading.mapValue_eq_ok_iff ..).1 h
      rcases List.mem_cons.mp hc with rfl | hc
      · rcases hmark with rfl | rfl <;> decide
      · exact isBare_of_mem_exponentBody hbody hc
    · simp only [Except.ok.injEq, Prod.mk.injEq] at h
      simp [← h.1] at hc

theorem Numeral.exists_of_read_eq_ok
    {text source rest : List Char} (h : Numeral.read text = .ok (source, rest)) :
    ∃ units afterWhole places afterFraction scale,
      Numeral.whole (Numeral.sign text).2 = .ok (units, afterWhole) ∧
      Numeral.fraction afterWhole = .ok (places, afterFraction) ∧
      Numeral.exponent afterFraction = .ok (scale, rest) ∧
      source = (Numeral.sign text).1 ++ units ++ places ++ scale := by
  unfold Numeral.read at h
  cases hwhole : Numeral.whole (Numeral.sign text).2 with
  | error fault => simp [hwhole, bind, Except.bind] at h
  | ok split =>
      cases hfraction : Numeral.fraction split.2 with
      | error fault => simp [hwhole, hfraction, bind, Except.bind] at h
      | ok split' =>
          cases hexponent : Numeral.exponent split'.2 with
          | error fault => simp [hwhole, hfraction, hexponent, bind, Except.bind] at h
          | ok split'' =>
              simp only [hwhole, hfraction, hexponent, bind, Except.bind, pure, Except.pure,
                Except.ok.injEq, Prod.mk.injEq] at h
              refine ⟨split.1, split.2, split'.1, split'.2, split''.1, rfl, hfraction, ?_, ?_⟩
              · rw [hexponent, ← h.2]
              · exact h.1.symm

theorem isBare_of_mem_numeral
    {text source rest : List Char} (h : Numeral.read text = .ok (source, rest))
    {c : Char} (hc : c ∈ source) : isBare c := by
  obtain ⟨units, afterWhole, places, afterFraction, scale,
    hwhole, hfraction, hexponent, rfl⟩ := Numeral.exists_of_read_eq_ok h
  simp only [List.mem_append] at hc
  rcases hc with ((hc | hc) | hc) | hc
  · exact isBare_of_mem_sign hc
  · exact isBare_of_mem_whole hwhole hc
  · exact isBare_of_mem_fraction hfraction hc
  · exact isBare_of_mem_exponent hexponent hc

theorem isBare_of_mem_word
    {start text inside behind : List Char} (h : wordBody start text = .ok (inside, behind))
    {c : Char} (hc : c ∈ inside) : isBare c := by
  induction text generalizing inside with
  | nil =>
      simp only [wordBody, Except.ok.injEq, Prod.mk.injEq] at h
      simp [← h.1] at hc
  | cons first rest ih =>
      unfold wordBody at h
      split at h
      · simp only [Except.ok.injEq, Prod.mk.injEq] at h
        simp [← h.1] at hc
      · split at h
        · rename_i hfirst
          obtain ⟨tail, hbody, rfl⟩ := (Reading.mapValue_eq_ok_iff ..).1 h
          rcases List.mem_cons.mp hc with rfl | hc
          · rcases hfirst with hfirst | rfl
            · simp [isBare, hfirst]
            · decide
          · exact ih hbody hc
        · simp at h

theorem eq_append_of_afterKeyword?
    {keyword text behind : List Char} (h : afterKeyword? keyword text = some behind) :
    text = keyword ++ behind := by
  unfold afterKeyword? at h
  split at h
  · rename_i hkeyword
    obtain ⟨tail, rfl⟩ := List.isPrefixOf_iff_prefix.mp hkeyword
    rw [List.drop_left] at h
    split at h
    · simp only [Option.some.injEq] at h
      rw [h]
    · split at h
      · simp at h
      · simp only [Option.some.injEq] at h
        rw [h]
  · simp at h

theorem exists_of_keywordOrWord_eq_ok
    {text behind : List Char} {token : Token}
    (h : keywordOrWord text = .ok (token, behind)) :
    ∃ inside, text = inside ++ behind ∧ inside ≠ [] ∧ (∀ c ∈ inside, isBare c) ∧
      token.isBare := by
  unfold keywordOrWord at h
  split at h
  · rename_i after hafter
    simp only [Except.ok.injEq, Prod.mk.injEq] at h
    obtain ⟨rfl, rfl⟩ := h
    exact ⟨_, eq_append_of_afterKeyword? hafter, by decide,
      List.all_eq_true.mp (by decide), rfl⟩
  · split at h
    · rename_i after hafter
      simp only [Except.ok.injEq, Prod.mk.injEq] at h
      obtain ⟨rfl, rfl⟩ := h
      exact ⟨_, eq_append_of_afterKeyword? hafter, by decide,
        List.all_eq_true.mp (by decide), rfl⟩
    · split at h
      · rename_i after hafter
        simp only [Except.ok.injEq, Prod.mk.injEq] at h
        obtain ⟨rfl, rfl⟩ := h
        exact ⟨_, eq_append_of_afterKeyword? hafter, by decide,
          List.all_eq_true.mp (by decide), rfl⟩
      · split at h
        · simp at h
        · simp at h
        · rename_i inside behind' hne hword
          simp only [Except.ok.injEq, Prod.mk.injEq] at h
          obtain ⟨rfl, rfl⟩ := h
          exact ⟨inside, wordBody_eq_append hword, hne, fun c hc => isBare_of_mem_word hword hc,
            rfl⟩

/-! ## The four kinds of step -/

/-- `Scanned c rest token? behind`: a step of the scan on `c :: rest` takes a token, or a comment
for want of one, and leaves `behind`. -/
inductive Scanned : Char → List Char → Option Token → List Char → Prop where
  | punctuation {c : Char} {token : Token} (rest : List Char)
      (htoken : punctuation? c = some token) :
      Scanned c rest (some token) rest
  | string {c : Char} {rest inside behind : List Char}
      (hquote : c = '"' ∨ c = '\'')
      (hbody : Quoted.body c (c :: rest) rest = .ok (inside, behind)) :
      Scanned c rest (some (.string (String.ofList inside))) behind
  | comment {rest behind : List Char} (hcomment : comment rest = .ok behind) :
      Scanned '/' rest none behind
  | bare {c : Char} {rest behind : List Char} {token : Token} (inside : List Char)
      (happend : c :: rest = inside ++ behind) (hne : inside ≠ [])
      (hbare : ∀ c ∈ inside, isBare c) (htoken : token.isBare) :
      Scanned c rest (some token) behind

/-- Every step of the scan is of one of the four kinds. -/
theorem Scanned.of_scan
    {c : Char} {rest behind : List Char} {token? : Option Token}
    (h : scan c rest = .ok (token?, behind)) :
    Scanned c rest token? behind := by
  unfold scan at h
  split at h
  · rename_i token htoken
    simp only [Except.ok.injEq, Prod.mk.injEq] at h
    obtain ⟨rfl, rfl⟩ := h
    exact .punctuation _ htoken
  · split at h
    · rename_i hquote
      obtain ⟨inside, hbody, rfl⟩ := (Reading.mapValue_eq_ok_iff ..).1 h
      exact .string hquote hbody
    · split at h
      · rename_i hslash
        split at h
        · rename_i after hcomment
          simp only [Except.ok.injEq, Prod.mk.injEq] at h
          obtain ⟨rfl, rfl⟩ := h
          exact hslash ▸ .comment hcomment
        · simp at h
      · split at h
        · obtain ⟨source, hread, rfl⟩ := (Reading.mapValue_eq_ok_iff ..).1 h
          obtain ⟨happend, hne⟩ := Numeral.read_eq_append hread
          exact .bare source happend hne (fun c hc => isBare_of_mem_numeral hread hc) rfl
        · obtain ⟨token, hword, rfl⟩ := (Reading.mapValue_eq_ok_iff ..).1 h
          obtain ⟨inside, happend, hne, hbare, htoken⟩ := exists_of_keywordOrWord_eq_ok hword
          exact .bare inside happend hne hbare htoken

/-! ## What a step leaves -/

theorem suffix_of_body
    {quote : Char} {start text inside behind : List Char}
    (h : Quoted.body quote start text = .ok (inside, behind)) :
    behind <:+ text := by
  fun_induction Quoted.body quote start text generalizing inside with
  | case1 => simp at h
  | case2 => simp at h
  | case3 => simp at h
  | case4 a b c d rest character _ ih =>
      obtain ⟨tail, hbody, -⟩ := (Reading.mapValue_eq_ok_iff ..).1 h
      exact (ih hbody).trans ⟨['\\', 'u', a, b, c, d], rfl⟩
  | case5 => simp at h
  | case6 => simp at h
  | case7 c rest _ _ character _ ih =>
      obtain ⟨tail, hbody, -⟩ := (Reading.mapValue_eq_ok_iff ..).1 h
      exact (ih hbody).trans ⟨['\\', c], rfl⟩
  | case8 rest =>
      simp only [Except.ok.injEq, Prod.mk.injEq] at h
      exact ⟨[quote], by rw [← h.2]; rfl⟩
  | case9 c rest _ _ _ _ _ ih =>
      obtain ⟨tail, hbody, -⟩ := (Reading.mapValue_eq_ok_iff ..).1 h
      exact (ih hbody).trans (List.suffix_cons c rest)

theorem suffix_of_afterBlockComment?
    {text behind : List Char} (h : afterBlockComment? text = some behind) :
    behind <:+ text := by
  fun_induction afterBlockComment? text with
  | case1 => simp at h
  | case2 rest => exact ⟨['*', '/'], by rw [← Option.some.inj h]; rfl⟩
  | case3 c rest _ ih => exact (ih h).trans (List.suffix_cons c rest)

theorem suffix_of_comment
    {rest behind : List Char} (h : comment rest = .ok behind) :
    behind <:+ rest := by
  unfold comment at h
  split at h
  · rename_i inside
    simp only [Except.ok.injEq] at h
    rw [← h]
    exact (List.dropWhile_suffix _).trans (List.suffix_cons '/' inside)
  · rename_i inside
    split at h
    · rename_i after hafter
      simp only [Except.ok.injEq] at h
      rw [← h]
      exact (suffix_of_afterBlockComment? hafter).trans (List.suffix_cons '*' inside)
    · simp at h
  · simp at h

theorem Scanned.suffix
    {c : Char} {rest behind : List Char} {token? : Option Token}
    (h : Scanned c rest token? behind) :
    behind <:+ c :: rest := by
  cases h with
  | punctuation rest htoken => exact List.suffix_cons c _
  | string hquote hbody => exact (suffix_of_body hbody).trans (List.suffix_cons c rest)
  | comment hcomment => exact (suffix_of_comment hcomment).trans (List.suffix_cons '/' rest)
  | bare inside happend => exact ⟨inside, happend.symm⟩

theorem suffix_of_mem_lexemes
    {text : List Char} {lexeme : Lexeme} (h : lexeme ∈ (lex text).lexemes) :
    lexeme.start <:+ text := by
  induction text using lex.induct with
  | case1 => simp [lex_nil] at h
  | case2 c rest hc ih =>
      rw [lex_of_isBlank hc] at h
      exact (ih h).trans (List.suffix_cons c rest)
  | case3 c rest hc fault hscan => simp [lex_of_fault hc hscan] at h
  | case4 c rest hc behind hscan _ ih =>
      rw [lex_of_comment hc hscan] at h
      exact (ih h).trans (Scanned.of_scan hscan).suffix
  | case5 c rest hc token behind hscan _ ih =>
      rw [lex_of_token hc hscan, Scan.cons, List.mem_cons] at h
      rcases h with rfl | h
      · exact List.suffix_rfl
      · exact (ih h).trans (Scanned.of_scan hscan).suffix

/-- A token that opens a bracket is that bracket in the text. -/
theorem punctuation?_of_mem_lexemes
    {text : List Char} {lexeme : Lexeme} (h : lexeme ∈ (lex text).lexemes)
    (hopens : lexeme.token.opens) :
    ∃ c rest, lexeme.start = c :: rest ∧ punctuation? c = some lexeme.token := by
  induction text using lex.induct with
  | case1 => simp [lex_nil] at h
  | case2 c rest hc ih => exact ih (lex_of_isBlank hc rest ▸ h)
  | case3 c rest hc fault hscan => simp [lex_of_fault hc hscan] at h
  | case4 c rest hc behind hscan _ ih => exact ih (lex_of_comment hc hscan ▸ h)
  | case5 c rest hc token behind hscan _ ih =>
      rw [lex_of_token hc hscan, Scan.cons, List.mem_cons] at h
      rcases h with rfl | h
      · cases Scanned.of_scan hscan with
        | punctuation rest htoken => exact ⟨c, _, rfl, htoken⟩
        | string hquote hbody => exact absurd hopens (by simp [Token.opens])
        | bare inside happend hne hbare htoken =>
            have hscalar := Token.isScalar_of_isBare htoken
            exact absurd hopens (by simp [Token.opens_of_isScalar hscalar])
      · exact ih h

end TreeGen.Json
