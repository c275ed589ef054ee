import TreeGen.Proofs.Json.Nesting.Guard

/-!
# The nesting scan is exact on JSON

On a text that the reader accepts the scan finds an excess exactly when more brackets than the limit
are open at some point, and what it finds is the bracket that opens the first level too many.
Strings and comments have no part in this: with blanks in their place the scan finds the same.
-/

namespace TreeGen.Json

open Nesting Text

/-! ## Blanks in place of strings and comments -/

/-- Whether what a step of the scan took is a string or a comment. -/
def hidesBrackets : Option Token → Bool
  | none | some (.string _) => true
  | _ => false

/-- The text with blanks in place of its strings and comments, one for each byte. -/
def blanked : List Char → List Char
  | [] => []
  | c :: rest =>
    if isBlank c then c :: blanked rest
    else
      match h : scan c rest with
      | .error _ => c :: rest
      | .ok (token?, behind) =>
        have := scan_length_le h
        let taken := (c :: rest).take ((c :: rest).length - behind.length)
        (if hidesBrackets token? then List.replicate (byteLength taken) ' ' else taken)
          ++ blanked behind
termination_by text => text.length

theorem blanked_nil : blanked [] = [] := by
  rw [blanked]

theorem blanked_of_isBlank {c : Char} (hc : isBlank c) (rest : List Char) :
    blanked (c :: rest) = c :: blanked rest := by
  rw [blanked, if_pos hc]

theorem blanked_of_fault
    {c : Char} {rest : List Char} {fault : Fault}
    (hc : ¬ isBlank c) (h : scan c rest = .error fault) :
    blanked (c :: rest) = c :: rest := by
  rw [blanked, if_neg hc]
  split <;> simp_all

theorem blanked_of_scan
    {c : Char} {rest taken behind : List Char} {token? : Option Token}
    (hc : ¬ isBlank c) (h : scan c rest = .ok (token?, behind))
    (htaken : c :: rest = taken ++ behind) :
    blanked (c :: rest) =
      (if hidesBrackets token? then List.replicate (byteLength taken) ' ' else taken)
        ++ blanked behind := by
  have htake : (c :: rest).take ((c :: rest).length - behind.length) = taken := by
    rw [htaken, List.length_append, Nat.add_sub_cancel, List.take_left]
  rw [blanked, if_neg hc]
  split
  · rename_i fault hfault
    rw [h] at hfault
    cases hfault
  · rename_i token?' behind' hok
    rw [h] at hok
    cases hok
    rw [htake]

theorem exists_blanked_of_hidesBrackets
    {c : Char} {rest behind : List Char} {token? : Option Token}
    (hc : ¬ isBlank c) (h : scan c rest = .ok (token?, behind))
    (hhides : hidesBrackets token?) :
    ∃ n, blanked (c :: rest) = List.replicate n ' ' ++ blanked behind := by
  obtain ⟨taken, htaken⟩ := (Scanned.of_scan h).suffix
  exact ⟨byteLength taken, by rw [blanked_of_scan hc h htaken.symm, if_pos hhides]⟩

theorem blanked_of_not_hidesBrackets
    {c : Char} {rest behind : List Char} {token? : Option Token}
    (hc : ¬ isBlank c) (h : scan c rest = .ok (token?, behind))
    (taken : List Char) (htaken : c :: rest = taken ++ behind)
    (hhides : hidesBrackets token? = false) :
    blanked (c :: rest) = taken ++ blanked behind := by
  rw [blanked_of_scan hc h htaken, hhides]
  rfl

theorem hidesBrackets_of_punctuation?
    {c : Char} {token : Token} (h : punctuation? c = some token) :
    hidesBrackets (some token) = false := by
  unfold punctuation? at h
  split at h <;> simp only [Option.some.injEq, reduceCtorEq] at h <;> subst h <;> rfl

theorem hidesBrackets_of_isBare {token : Token} (h : token.isBare) :
    hidesBrackets (some token) = false := by
  cases token <;> simp_all [Token.isBare, hidesBrackets]

theorem byteLength_replicate_blank (n : Nat) : byteLength (List.replicate n ' ') = n := by
  induction n with
  | zero => rfl
  | succ n ih =>
      rw [List.replicate_succ, byteLength, ih, show ' '.utf8Size = 1 by decide, Nat.add_comm]

theorem byteLength_blanked (text : List Char) :
    byteLength (blanked text) = byteLength text := by
  have hstep : ∀ {c : Char} {rest behind : List Char} {token? : Option Token}, ¬ isBlank c →
      scan c rest = .ok (token?, behind) → byteLength (blanked behind) = byteLength behind →
      byteLength (blanked (c :: rest)) = byteLength (c :: rest) := by
    intro c rest behind token? hc hscan ih
    obtain ⟨taken, htaken⟩ := (Scanned.of_scan hscan).suffix
    rw [blanked_of_scan hc hscan htaken.symm, byteLength_append, ih, ← htaken, byteLength_append]
    split
    · rw [byteLength_replicate_blank]
    · rfl
  induction text using lex.induct with
  | case1 => rw [blanked_nil]
  | case2 c rest hc ih => rw [blanked_of_isBlank hc, byteLength, byteLength, ih]
  | case3 c rest hc fault hscan => rw [blanked_of_fault hc hscan]
  | case4 c rest hc behind hscan _ ih => exact hstep hc hscan ih
  | case5 c rest hc token behind hscan _ ih => exact hstep hc hscan ih

theorem excess?_replicate_blank (limit depth n : Nat) (rest : List Char) :
    Characters.excess? limit depth (List.replicate n ' ' ++ rest) =
      Characters.excess? limit depth rest := by
  refine Characters.excess?_append_of_not_isMark (fun c hc => ?_) limit depth rest
  rw [List.eq_of_mem_replicate hc]
  decide

/-- What the scan finds is the same with blanks in place of strings and comments. -/
theorem excess?_blanked
    (limit depth : Nat) (text : List Char) (hfault : (lex text).fault? = none) :
    Characters.excess? limit depth (blanked text) =
      (Characters.excess? limit depth text).map blanked := by
  induction text using lex.induct generalizing depth with
  | case1 => simp [blanked_nil, Characters.excess?]
  | case2 c rest hc ih =>
      rw [lex_of_isBlank hc] at hfault
      have hmark := Characters.not_isMark_of_isBlank hc
      rw [blanked_of_isBlank hc, Characters.excess?_cons_of_not_isMark hmark,
        Characters.excess?_cons_of_not_isMark hmark, ih depth hfault]
  | case3 c rest hc fault hscan =>
      rw [lex_of_fault hc hscan] at hfault
      simp at hfault
  | case4 c rest hc behind hscan _ ih =>
      rw [lex_of_comment hc hscan] at hfault
      obtain ⟨n, hblanked⟩ := exists_blanked_of_hidesBrackets hc hscan rfl
      rw [hblanked, excess?_replicate_blank, Characters.excess?_of_scan_comment hscan,
        ih depth hfault]
  | case5 c rest hc token behind hscan _ ih =>
      rw [lex_of_token hc hscan] at hfault
      have hbehind := ih (token.depthAfter depth) hfault
      rw [Characters.excess?_of_scan_token hscan]
      cases Scanned.of_scan hscan with
      | punctuation _ htoken =>
          have hblanked : blanked (c :: rest) = c :: blanked rest :=
            blanked_of_not_hidesBrackets hc hscan [c] rfl
              (hidesBrackets_of_punctuation? htoken)
          rw [hblanked, Characters.excess?_of_punctuation htoken]
          split
          · rw [Option.map_some, hblanked]
          · exact hbehind
      | string hquote hbody =>
          obtain ⟨n, hblanked⟩ := exists_blanked_of_hidesBrackets hc hscan rfl
          rw [hblanked, excess?_replicate_blank, if_neg (by simp [Token.opens])]
          exact hbehind
      | bare inside happend hne hbare htoken =>
          have hscalar := Token.isScalar_of_isBare htoken
          rw [blanked_of_not_hidesBrackets hc hscan inside happend (hidesBrackets_of_isBare htoken),
            Characters.excess?_append_of_not_isMark fun c hc =>
              Characters.not_isMark_of_isBare (hbare c hc),
            if_neg (by simp [Token.opens_of_isScalar hscalar])]
          rw [Token.depthAfter_of_isScalar hscalar] at hbehind ⊢
          exact hbehind

/-! ## What the scan finds on a text that is accepted -/

/-- `IsFirstExcess text limit offset`: at the byte `offset` stands a bracket token, and of all the
tokens of the text it is the first behind which more than `limit` brackets are open. -/
def IsFirstExcess (text : String) (limit offset : Nat) : Prop :=
  ∃ taken lexeme front,
    (lex text.toList).lexemes[taken]? = some lexeme ∧
      (∀ earlier ≤ taken, (stateAfter text earlier).openCount ≤ limit) ∧
      (stateAfter text (taken + 1)).openCount = limit + 1 ∧
      (lexeme.token = .openBracket ∧ lexeme.start.head? = some '[' ∨
        lexeme.token = .openBrace ∧ lexeme.start.head? = some '{') ∧
      text.toList = front ++ lexeme.start ∧ offset = byteLength front

theorem IsFirstExcess.lt_utf8ByteSize
    {text : String} {limit offset : Nat} (h : IsFirstExcess text limit offset) :
    offset < text.utf8ByteSize := by
  obtain ⟨taken, lexeme, front, -, -, -, hbracket, happend, rfl⟩ := h
  have hne : lexeme.start ≠ [] := by
    rcases hbracket with ⟨-, hhead⟩ | ⟨-, hhead⟩ <;> rintro hnil <;> simp [hnil] at hhead
  obtain ⟨c, rest, hcons⟩ := List.exists_cons_of_ne_nil hne
  have hpos := c.utf8Size_pos
  rw [utf8ByteSize_eq_byteLength, happend, byteLength_append, hcons, byteLength]
  omega

theorem IsFirstExcess.isValid
    {text : String} {limit offset : Nat} (h : IsFirstExcess text limit offset) :
    (String.Pos.Raw.mk offset).IsValid text := by
  obtain ⟨taken, lexeme, front, -, -, -, -, happend, rfl⟩ := h
  exact isValid_of_toList_eq_append happend

theorem eq_of_opens_of_punctuation?
    {c : Char} {token : Token} (h : punctuation? c = some token) (hopens : token.opens) :
    token = .openBracket ∧ c = '[' ∨ token = .openBrace ∧ c = '{' := by
  unfold punctuation? at h
  split at h <;> simp only [Option.some.injEq, reduceCtorEq] at h <;> subst h <;>
    simp_all [Token.opens]

/-- On a text without a fault the scan finds what counting the tokens finds. -/
theorem excess?_eq_overrun?
    {text : List Char} (hfault : (lex text).fault? = none) (limit : Nat) :
    Characters.excess? limit 0 text = overrun? limit 0 (lex text).lexemes := by
  obtain ⟨beyond, hexcess, hbeyond⟩ := Characters.exists_excess?_eq limit 0 text
  rw [hexcess, hbeyond hfault, Option.or_none]

theorem isFirstExcess_of_firstExcess?_eq_some
    {text : String} {limit offset : Nat} {value? : Option Json}
    (haccepted : read text = .ok value?) (hscan : firstExcess? text limit = some offset) :
    IsFirstExcess text limit offset := by
  obtain ⟨hfault, halive, -⟩ := of_read_eq_ok haccepted
  rw [firstExcess?_eq, excess?_eq_overrun? hfault, Option.map_eq_some_iff] at hscan
  obtain ⟨rest, hoverrun, hoffset⟩ := hscan
  obtain ⟨taken, lexeme, hlexeme, rfl, hopens, hearlier, hover⟩ :=
    exists_of_overrun?_eq_some halive hoverrun (Nat.zero_le limit)
  have hmem := List.mem_of_getElem? hlexeme
  obtain ⟨front, happend⟩ := suffix_of_mem_lexemes hmem
  obtain ⟨c, rest, hcons, htoken⟩ := punctuation?_of_mem_lexemes hmem hopens
  refine ⟨taken, lexeme, front, hlexeme, hearlier, hover, ?_, happend.symm, ?_⟩
  · rw [hcons, List.head?_cons, Option.some.injEq, Option.some.injEq]
    exact eq_of_opens_of_punctuation? htoken hopens
  · rw [← hoffset, ← happend, byteLength_append, Nat.add_sub_cancel]

theorem firstExcess?_eq_none_of_openCount_le
    {text : String} {limit : Nat} {value? : Option Json}
    (haccepted : read text = .ok value?)
    (hopen : ∀ taken, (stateAfter text taken).openCount ≤ limit) :
    firstExcess? text limit = none := by
  cases hscan : firstExcess? text limit with
  | none => rfl
  | some offset =>
      obtain ⟨taken, lexeme, front, -, -, hover, -⟩ :=
        isFirstExcess_of_firstExcess?_eq_some haccepted hscan
      have hle := hopen (taken + 1)
      omega

/-- A text whose value nests within the limit passes the scan. -/
theorem firstExcess?_eq_none_of_nesting_le
    {text : String} {limit : Nat} {value : Json}
    (haccepted : read text = .ok (some value)) (hnesting : value.nesting ≤ limit) :
    firstExcess? text limit = none := by
  apply firstExcess?_eq_none_of_openCount_le haccepted
  intro taken
  exact Nat.le_trans (openCount_stateAfter_le_nesting haccepted taken) hnesting

/-- On a text that is accepted, as a value or as none, the scan finds an excess exactly when at some
point more brackets than the limit are open.  What it finds is the bracket token that opens the
first level too many, at a character boundary inside the text.  With blanks in place of all strings
and comments it finds the same. -/
theorem firstExcess?_exact_of_read_eq_ok
    (text : String) (limit : Nat) (value? : Option Json)
    (haccepted : read text = .ok value?) :
    (firstExcess? text limit = none ↔ ∀ taken, (stateAfter text taken).openCount ≤ limit) ∧
      (∀ offset, firstExcess? text limit = some offset →
        IsFirstExcess text limit offset ∧ (String.Pos.Raw.mk offset).IsValid text ∧
          offset < text.utf8ByteSize) ∧
      firstExcess? (String.ofList (blanked text.toList)) limit = firstExcess? text limit := by
  refine ⟨⟨?_, ?_⟩, ?_, ?_⟩
  · intro hscan
    exact openCount_stateAfter_le_of_firstExcess?_eq_none hscan
  · intro hopen
    exact firstExcess?_eq_none_of_openCount_le haccepted hopen
  · intro offset hscan
    have hfirst := isFirstExcess_of_firstExcess?_eq_some haccepted hscan
    exact ⟨hfirst, hfirst.isValid, hfirst.lt_utf8ByteSize⟩
  · obtain ⟨hfault, -, -⟩ := of_read_eq_ok haccepted
    rw [firstExcess?_eq, firstExcess?_eq, String.toList_ofList,
      excess?_blanked limit 0 text.toList hfault, Option.map_map, byteLength_blanked]
    simp only [Function.comp_def, byteLength_blanked]

/-- Brackets in a comment that starts like one that ends and in strings of both kinds, and an offset
behind a character of two bytes. -/
theorem firstExcess?_exact_of_second_level :
    read "[/*/é[*/ ['\\'[', \"'[\"]]" =
        .ok (some (.array [.array [.string "'[", .string "'["]])) ∧
      firstExcess? "[/*/é[*/ ['\\'[', \"'[\"]]" 1 = some 10 ∧
      IsFirstExcess "[/*/é[*/ ['\\'[', \"'[\"]]" 1 10 := by
  have haccepted : read "[/*/é[*/ ['\\'[', \"'[\"]]" =
      .ok (some (.array [.array [.string "'[", .string "'["]])) := by
    with_unfolding_all rfl
  have hscan : firstExcess? "[/*/é[*/ ['\\'[', \"'[\"]]" 1 = some 10 := by
    decide +kernel
  exact ⟨haccepted, hscan,
    ((firstExcess?_exact_of_read_eq_ok _ 1 _ haccepted).2.1 10 hscan).1⟩

end TreeGen.Json
