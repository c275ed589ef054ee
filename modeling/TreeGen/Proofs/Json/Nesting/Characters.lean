import TreeGen.Json.Nesting
import TreeGen.Proofs.Text.Utf8

/-!
# The nesting scan on characters

The scan reads bytes, but everything it looks for is an ASCII character.  So it does on the bytes of
a text what the functions below do on its characters, and what it finds starts at a character.  A
backslash that hides only the first byte of a longer character makes no difference, because the
other bytes of that character mean nothing to the scan.
-/

namespace TreeGen.Json.Nesting

open Text

/-! ## The scan, character by character -/

namespace Characters

/-- The text behind a string, from inside the string. -/
def afterString (quote : Char) : List Char → List Char
  | [] => []
  | [_] => []
  | c :: hidden :: rest =>
    if c = quote then hidden :: rest
    else if c = '\\' then afterString quote rest
    else afterString quote (hidden :: rest)

def afterLine : List Char → List Char
  | [] => []
  | c :: rest => if c = '\n' then rest else afterLine rest

def afterBlock : List Char → List Char
  | [] => []
  | c :: rest => if c = '*' ∧ rest.head? = some '/' then rest.tail else afterBlock rest

theorem afterString_suffix (quote : Char) (text : List Char) : afterString quote text <:+ text := by
  fun_induction afterString quote text with
  | case1 => exact List.suffix_refl []
  | case2 c => exact List.nil_suffix
  | case3 hidden rest => exact List.suffix_cons quote (hidden :: rest)
  | case4 hidden rest _ ih => exact ih.trans ((List.suffix_cons _ _).trans (List.suffix_cons _ _))
  | case5 c hidden rest _ _ ih => exact ih.trans (List.suffix_cons c _)

theorem afterLine_suffix (text : List Char) : afterLine text <:+ text := by
  fun_induction afterLine text with
  | case1 => exact List.suffix_refl []
  | case2 rest => exact List.suffix_cons _ rest
  | case3 c rest _ ih => exact ih.trans (List.suffix_cons c rest)

theorem afterBlock_suffix (text : List Char) : afterBlock text <:+ text := by
  fun_induction afterBlock text with
  | case1 => exact List.suffix_refl []
  | case2 c rest => exact (List.tail_suffix rest).trans (List.suffix_cons c rest)
  | case3 c rest _ ih => exact ih.trans (List.suffix_cons c rest)

theorem afterString_length_le (quote : Char) (text : List Char) :
    (afterString quote text).length ≤ text.length :=
  (afterString_suffix quote text).length_le

theorem afterLine_length_le (text : List Char) :
    (afterLine text).length ≤ text.length :=
  (afterLine_suffix text).length_le

theorem afterBlock_length_le (text : List Char) :
    (afterBlock text).length ≤ text.length :=
  (afterBlock_suffix text).length_le

/-- The rest of the text from the first bracket that takes the nesting above `limit`. -/
def excess? (limit depth : Nat) : List Char → Option (List Char)
  | [] => none
  | c :: rest =>
    if c = '"' ∨ c = '\'' then
      have := afterString_length_le c rest
      excess? limit depth (afterString c rest)
    else if c = '/' ∧ rest.head? = some '/' then
      have := afterLine_length_le rest
      excess? limit depth (afterLine rest)
    else if c = '/' ∧ rest.head? = some '*' then
      have := afterBlock_length_le rest.tail
      have := List.length_tail (l := rest)
      excess? limit depth (afterBlock rest.tail)
    else if c = '[' ∨ c = '{' then
      if depth + 1 > limit then some (c :: rest) else excess? limit (depth + 1) rest
    else if c = ']' ∨ c = '}' then excess? limit (depth - 1) rest
    else excess? limit depth rest
termination_by text => text.length
decreasing_by all_goals simp only [List.length_cons]; omega

/-- What the scan finds, in any text, is a part of it that starts with an opening bracket. -/
theorem exists_bracket_of_excess?
    {limit depth : Nat} {text rest : List Char} (h : excess? limit depth text = some rest) :
    rest <:+ text ∧ ∃ c tail, rest = c :: tail ∧ (c = '[' ∨ c = '{') := by
  have hpass : ∀ {c : Char} {text behind : List Char}, behind <:+ text → rest <:+ behind →
      rest <:+ c :: text := by
    intro c text behind hbehind hrest
    exact (hrest.trans hbehind).trans (List.suffix_cons c text)
  fun_induction excess? limit depth text with
  | case1 => cases h
  | case2 depth c text hquote _ ih => exact ⟨hpass (afterString_suffix c text) (ih h).1, (ih h).2⟩
  | case3 depth c text _ _ _ ih => exact ⟨hpass (afterLine_suffix text) (ih h).1, (ih h).2⟩
  | case4 depth c text _ _ _ _ _ ih =>
      have hbehind := (afterBlock_suffix text.tail).trans (List.tail_suffix text)
      exact ⟨hpass hbehind (ih h).1, (ih h).2⟩
  | case5 depth c text _ _ _ hopen _ =>
      cases h
      exact ⟨List.suffix_refl _, c, text, rfl, hopen⟩
  | case6 depth c text _ _ _ _ _ ih => exact ⟨hpass (List.suffix_refl text) (ih h).1, (ih h).2⟩
  | case7 depth c text _ _ _ _ _ ih => exact ⟨hpass (List.suffix_refl text) (ih h).1, (ih h).2⟩
  | case8 depth c text _ _ _ _ _ ih => exact ⟨hpass (List.suffix_refl text) (ih h).1, (ih h).2⟩

end Characters

/-! ## Strings and comments end at the same place -/

theorem afterString_quote (quote : UInt8) (rest : List UInt8) :
    afterString quote (quote :: rest) = rest := by
  cases rest with
  | nil => rfl
  | cons hidden rest => rw [afterString, if_pos rfl]

theorem afterString_pass
    {quote b : UInt8} (hquote : b ≠ quote) (hslash : b ≠ '\\'.toUInt8) (rest : List UInt8) :
    afterString quote (b :: rest) = afterString quote rest := by
  cases rest with
  | nil => rfl
  | cons hidden rest => rw [afterString, if_neg hquote, if_neg hslash]

theorem afterString_high
    {quote : Char} (hquote : quote.toNat < 128)
    (b : UInt8) (rest : List UInt8) (hb : 128 ≤ b.toNat) :
    afterString quote.toUInt8 (b :: rest) = afterString quote.toUInt8 rest :=
  afterString_pass (ne_toUInt8_of_le_toNat hb hquote)
    (ne_toUInt8_of_le_toNat hb (by decide)) rest

theorem afterString_utf8
    {quote : Char} (hquote : quote.toNat < 128) (hne : quote ≠ '\\') (text : List Char) :
    afterString quote.toUInt8 (utf8 text) = utf8 (Characters.afterString quote text) := by
  fun_induction Characters.afterString quote text with
  | case1 => rfl
  | case2 c =>
      by_cases hc : c.toNat < 128
      · rw [utf8_cons_of_lt hc]
        rfl
      · rw [apply_utf8_cons_of_high (afterString_high hquote) hc]
        rfl
  | case3 hidden rest =>
      rw [utf8_cons_of_lt hquote, afterString_quote]
  | case4 hidden rest hslash ih =>
      obtain ⟨first, others, heq, hothers⟩ := exists_utf8EncodeChar_eq_cons hidden
      have hslashQuote : '\\'.toUInt8 ≠ quote.toUInt8 := fun h =>
        hne ((toUInt8_inj (by decide) hquote).mp h).symm
      rw [utf8_cons_of_lt (by decide), utf8_cons, heq, List.cons_append, afterString,
        if_neg hslashQuote, if_pos rfl,
        apply_append_of_high (afterString_high hquote) hothers, ih]
  | case5 c hidden rest hcQuote hcSlash ih =>
      rw [← ih]
      by_cases hc : c.toNat < 128
      · have hbQuote : c.toUInt8 ≠ quote.toUInt8 := fun h =>
          hcQuote ((toUInt8_inj hc hquote).mp h)
        have hbSlash : c.toUInt8 ≠ '\\'.toUInt8 := fun h =>
          hcSlash ((toUInt8_inj hc (by decide)).mp h)
        rw [utf8_cons_of_lt hc, afterString_pass hbQuote hbSlash]
      · exact apply_utf8_cons_of_high (afterString_high hquote) hc _

theorem afterLine_utf8 (text : List Char) :
    afterLine (utf8 text) = utf8 (Characters.afterLine text) := by
  fun_induction Characters.afterLine text with
  | case1 => rfl
  | case2 rest =>
      rw [utf8_cons_of_lt (by decide), afterLine, if_pos rfl]
  | case3 c rest hc ih =>
      rw [← ih]
      by_cases hlow : c.toNat < 128
      · rw [utf8_cons_of_lt hlow, afterLine,
          if_neg fun h => hc ((toUInt8_inj hlow (by decide)).mp h)]
      · refine apply_utf8_cons_of_high (fun b rest hb => ?_) hlow rest
        rw [afterLine, if_neg (ne_toUInt8_of_le_toNat hb (by decide))]

theorem afterBlock_utf8 (text : List Char) :
    afterBlock (utf8 text) = utf8 (Characters.afterBlock text) := by
  fun_induction Characters.afterBlock text with
  | case1 => rfl
  | case2 c rest h =>
      obtain ⟨rfl, hslash⟩ := h
      rw [utf8_cons_of_lt (by decide), afterBlock,
        if_pos ⟨rfl, (head?_utf8_eq_some_iff (by decide) rest).mpr hslash⟩,
        tail_utf8 (by decide) hslash]
  | case3 c rest h ih =>
      rw [← ih]
      by_cases hlow : c.toNat < 128
      · rw [utf8_cons_of_lt hlow, afterBlock, if_neg]
        rintro ⟨hstar, hslash⟩
        exact h ⟨(toUInt8_inj hlow (by decide)).mp hstar,
          (head?_utf8_eq_some_iff (by decide) rest).mp hslash⟩
      · refine apply_utf8_cons_of_high (fun b rest hb => ?_) hlow rest
        rw [afterBlock, if_neg fun h => ne_toUInt8_of_le_toNat hb (by decide) h.1]

/-! ## The two scans agree -/

theorem excess?_high
    (limit depth : Nat) (b : UInt8) (rest : List UInt8) (hb : 128 ≤ b.toNat) :
    excess? limit depth (b :: rest) = excess? limit depth rest := by
  have hne : ∀ mark : Char, mark.toNat < 128 → b ≠ mark.toUInt8 := fun _ hmark =>
    ne_toUInt8_of_le_toNat hb hmark
  rw [excess?,
    if_neg (by simp [hne '"' (by decide), hne '\'' (by decide)]),
    if_neg fun h => hne '/' (by decide) h.1,
    if_neg fun h => hne '/' (by decide) h.1,
    if_neg (by simp [hne '[' (by decide), hne '{' (by decide)]),
    if_neg (by simp [hne ']' (by decide), hne '}' (by decide)])]

/-- What the scan does on the byte of an ASCII character, told by the character. -/
theorem excess?_utf8_cons
    (limit depth : Nat) {c : Char} (hc : c.toNat < 128) (rest : List Char) :
    excess? limit depth (utf8 (c :: rest)) =
      if c = '"' ∨ c = '\'' then excess? limit depth (afterString c.toUInt8 (utf8 rest))
      else if c = '/' ∧ rest.head? = some '/' then excess? limit depth (afterLine (utf8 rest))
      else if c = '/' ∧ rest.head? = some '*' then
        excess? limit depth (afterBlock (utf8 rest).tail)
      else if c = '[' ∨ c = '{' then
        if depth + 1 > limit then some (utf8 (c :: rest))
        else excess? limit (depth + 1) (utf8 rest)
      else if c = ']' ∨ c = '}' then excess? limit (depth - 1) (utf8 rest)
      else excess? limit depth (utf8 rest) := by
  have hmark : ∀ mark : Char, mark.toNat < 128 → (c.toUInt8 = mark.toUInt8 ↔ c = mark) :=
    fun _ => toUInt8_inj hc
  rw [utf8_cons_of_lt hc, excess?]
  simp only [hmark '"' (by decide), hmark '\'' (by decide), hmark '/' (by decide),
    hmark '[' (by decide), hmark '{' (by decide), hmark ']' (by decide),
    hmark '}' (by decide), head?_utf8_eq_some_iff (show '/'.toNat < 128 by decide) rest,
    head?_utf8_eq_some_iff (show '*'.toNat < 128 by decide) rest]

theorem excess?_utf8_cons_of_high
    (limit depth : Nat) {c : Char} (hc : ¬ c.toNat < 128) (rest : List Char) :
    excess? limit depth (utf8 (c :: rest)) = excess? limit depth (utf8 rest) :=
  apply_utf8_cons_of_high (excess?_high limit depth) hc rest

/-- On the bytes of a text the scan finds the bytes of what the scan on characters finds. -/
theorem excess?_utf8 (limit depth : Nat) (text : List Char) :
    excess? limit depth (utf8 text) = (Characters.excess? limit depth text).map utf8 := by
  fun_induction Characters.excess? limit depth text with
  | case1 => simp [utf8, excess?]
  | case2 depth c rest h _ ih =>
      have hlow : c.toNat < 128 := by rcases h with rfl | rfl <;> decide
      have hne : c ≠ '\\' := by rcases h with rfl | rfl <;> decide
      rw [excess?_utf8_cons limit depth hlow, if_pos h, afterString_utf8 hlow hne, ih]
  | case3 depth c rest h h' _ ih =>
      have hlow : c.toNat < 128 := by rw [h'.1]; decide
      rw [excess?_utf8_cons limit depth hlow, if_neg h, if_pos h', afterLine_utf8, ih]
  | case4 depth c rest h h' h'' _ _ ih =>
      have hlow : c.toNat < 128 := by rw [h''.1]; decide
      rw [excess?_utf8_cons limit depth hlow, if_neg h, if_neg h', if_pos h'',
        tail_utf8 (by decide) h''.2, afterBlock_utf8, ih]
  | case5 depth c rest h h' h'' hopen hexcess =>
      have hlow : c.toNat < 128 := by rcases hopen with rfl | rfl <;> decide
      rw [excess?_utf8_cons limit depth hlow, if_neg h, if_neg h', if_neg h'', if_pos hopen,
        if_pos hexcess, Option.map_some]
  | case6 depth c rest h h' h'' hopen hexcess ih =>
      have hlow : c.toNat < 128 := by rcases hopen with rfl | rfl <;> decide
      rw [excess?_utf8_cons limit depth hlow, if_neg h, if_neg h', if_neg h'', if_pos hopen,
        if_neg hexcess, ih]
  | case7 depth c rest h h' h'' hopen hclose ih =>
      have hlow : c.toNat < 128 := by rcases hclose with rfl | rfl <;> decide
      rw [excess?_utf8_cons limit depth hlow, if_neg h, if_neg h', if_neg h'', if_neg hopen,
        if_pos hclose, ih]
  | case8 depth c rest h h' h'' hopen hclose ih =>
      by_cases hlow : c.toNat < 128
      · rw [excess?_utf8_cons limit depth hlow, if_neg h, if_neg h', if_neg h'', if_neg hopen,
          if_neg hclose, ih]
      · rw [excess?_utf8_cons_of_high limit depth hlow, ih]

/-- The offset that the scan reports is the number of bytes before a character. -/
theorem firstExcess?_eq (text : String) (limit : Nat) :
    firstExcess? text limit =
      (Characters.excess? limit 0 text.toList).map fun rest =>
        byteLength text.toList - byteLength rest := by
  rw [firstExcess?, toUTF8_toList, excess?_utf8, Option.map_map]
  simp only [Function.comp_def, length_utf8]

end TreeGen.Json.Nesting
