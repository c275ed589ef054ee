import TreeGen.Text.Place

/-!
# The bytes of a text

A scan over bytes meets the ASCII characters of a text as single bytes and every other character
as bytes from 128 upwards.  So it can look for ASCII characters without decoding anything: no part
of another character looks like one.
-/

namespace TreeGen.Text

def utf8 (text : List Char) : List UInt8 :=
  text.flatMap String.utf8EncodeChar

theorem utf8_cons (c : Char) (rest : List Char) :
    utf8 (c :: rest) = String.utf8EncodeChar c ++ utf8 rest :=
  List.flatMap_cons

theorem utf8_append (a b : List Char) : utf8 (a ++ b) = utf8 a ++ utf8 b :=
  List.flatMap_append

theorem length_utf8 (text : List Char) : (utf8 text).length = byteLength text := by
  induction text with
  | nil => rfl
  | cons c rest ih =>
      rw [utf8_cons, List.length_append, String.length_utf8EncodeChar, ih, byteLength]

theorem toUTF8_toList (text : String) :
    text.toUTF8.data.toList = utf8 text.toList := by
  rw [String.toUTF8_eq_toByteArray, ← String.utf8Encode_toList, List.utf8Encode]
  simp [utf8]

theorem length_toUTF8 (text : String) : text.toUTF8.data.toList.length = text.utf8ByteSize :=
  rfl

theorem byteLength_append (a b : List Char) :
    byteLength (a ++ b) = byteLength a + byteLength b := by
  rw [← length_utf8, utf8_append, List.length_append, length_utf8, length_utf8]

theorem utf8ByteSize_eq_byteLength (text : String) :
    text.utf8ByteSize = byteLength text.toList := by
  rw [← length_utf8, ← toUTF8_toList, length_toUTF8]

theorem length_le_byteLength (text : List Char) : text.length ≤ byteLength text := by
  induction text with
  | nil => exact Nat.le_refl _
  | cons c rest ih =>
      have hpos := c.utf8Size_pos
      rw [byteLength, List.length_cons]
      omega

/-- The bytes before any part of a text end at a character boundary. -/
theorem isValid_of_toList_eq_append
    {text : String} {front rest : List Char} (h : text.toList = front ++ rest) :
    (String.Pos.Raw.mk (byteLength front)).IsValid text := by
  rw [String.Pos.Raw.isValid_iff_exists_append]
  refine ⟨String.ofList front, String.ofList rest, ?_, ?_⟩
  · rw [← String.ofList_append, ← h, String.ofList_toList]
  · rw [String.Pos.Raw.ext_iff, String.byteIdx_rawEndPos, utf8ByteSize_eq_byteLength,
      String.toList_ofList]

theorem utf8EncodeChar_of_lt {c : Char} (h : c.toNat < 128) :
    String.utf8EncodeChar c = [c.toUInt8] := by
  have hle : c.val.toNat ≤ 0x7f := Nat.le_of_lt_succ h
  rw [String.utf8EncodeChar]
  simp only [hle, if_true]
  rfl

theorem le_toNat_ofNat {n : Nat} (hlow : 128 ≤ n) (hhigh : n < 256) :
    128 ≤ (UInt8.ofNat n).toNat := by
  rw [UInt8.toNat_ofNat', Nat.mod_eq_of_lt hhigh]
  exact hlow

/-- No byte of another character is an ASCII character. -/
theorem le_toNat_of_mem_utf8EncodeChar
    {c : Char} (h : ¬ c.toNat < 128)
    {b : UInt8} (hb : b ∈ String.utf8EncodeChar c) :
    128 ≤ b.toNat := by
  have hlow : ¬ c.val.toNat ≤ 0x7f := fun hle => h (Nat.lt_succ_of_le hle)
  rw [String.utf8EncodeChar] at hb
  simp only [hlow, if_false] at hb
  split at hb
  · simp only [List.mem_cons, List.not_mem_nil, or_false] at hb
    rcases hb with rfl | rfl
    · exact le_toNat_ofNat (by omega) (by omega)
    · exact le_toNat_ofNat (by omega) (by omega)
  · split at hb
    · simp only [List.mem_cons, List.not_mem_nil, or_false] at hb
      rcases hb with rfl | rfl | rfl
      · exact le_toNat_ofNat (by omega) (by omega)
      · exact le_toNat_ofNat (by omega) (by omega)
      · exact le_toNat_ofNat (by omega) (by omega)
    · simp only [List.mem_cons, List.not_mem_nil, or_false] at hb
      rcases hb with rfl | rfl | rfl | rfl
      · exact le_toNat_ofNat (by omega) (by omega)
      · exact le_toNat_ofNat (by omega) (by omega)
      · exact le_toNat_ofNat (by omega) (by omega)
      · exact le_toNat_ofNat (by omega) (by omega)

theorem toUInt8_inj {c mark : Char} (hc : c.toNat < 128) (hmark : mark.toNat < 128) :
    c.toUInt8 = mark.toUInt8 ↔ c = mark := by
  constructor
  · intro h
    have hbyte : c.toNat % 2 ^ 8 = mark.toNat % 2 ^ 8 := congrArg UInt8.toNat h
    rw [Nat.mod_eq_of_lt (by omega), Nat.mod_eq_of_lt (by omega)] at hbyte
    exact Char.toNat_inj.mp hbyte
  · intro h
    rw [h]

theorem ne_toUInt8_of_le_toNat {b : UInt8} {mark : Char}
    (hb : 128 ≤ b.toNat) (hmark : mark.toNat < 128) :
    b ≠ mark.toUInt8 := by
  rintro rfl
  have hbyte : mark.toUInt8.toNat = mark.toNat % 2 ^ 8 := rfl
  rw [hbyte, Nat.mod_eq_of_lt (by omega)] at hb
  omega

theorem utf8_cons_of_lt {c : Char} (h : c.toNat < 128) (rest : List Char) :
    utf8 (c :: rest) = c.toUInt8 :: utf8 rest := by
  rw [utf8_cons, utf8EncodeChar_of_lt h, List.singleton_append]

/-- Behind the first byte of a character there are no ASCII characters. -/
theorem exists_utf8EncodeChar_eq_cons (c : Char) :
    ∃ first others, String.utf8EncodeChar c = first :: others ∧
      ∀ b ∈ others, 128 ≤ b.toNat := by
  by_cases h : c.toNat < 128
  · exact ⟨_, [], utf8EncodeChar_of_lt h, by simp⟩
  · obtain ⟨first, others, heq⟩ :=
      List.exists_cons_of_ne_nil (String.utf8EncodeChar_ne_nil (c := c))
    refine ⟨first, others, heq, ?_⟩
    intro b hb
    exact le_toNat_of_mem_utf8EncodeChar h (heq ▸ List.mem_cons_of_mem first hb)

/-- A text starts with the byte of an ASCII character when it starts with that character. -/
theorem head?_utf8_eq_some_iff {mark : Char} (hmark : mark.toNat < 128) (text : List Char) :
    (utf8 text).head? = some mark.toUInt8 ↔ text.head? = some mark := by
  cases text with
  | nil => simp [utf8]
  | cons c rest =>
      by_cases hc : c.toNat < 128
      · rw [utf8_cons_of_lt hc, List.head?_cons, List.head?_cons,
          Option.some.injEq, Option.some.injEq]
        exact toUInt8_inj hc hmark
      · obtain ⟨first, others, heq, -⟩ := exists_utf8EncodeChar_eq_cons c
        have hfirst : 128 ≤ first.toNat :=
          le_toNat_of_mem_utf8EncodeChar hc (heq ▸ List.mem_cons_self)
        rw [utf8_cons, heq, List.cons_append, List.head?_cons, List.head?_cons,
          Option.some.injEq, Option.some.injEq]
        constructor
        · intro h
          exact absurd h (ne_toUInt8_of_le_toNat hfirst hmark)
        · rintro rfl
          exact absurd hmark hc

theorem tail_utf8 {mark : Char} (hmark : mark.toNat < 128)
    {text : List Char} (h : text.head? = some mark) :
    (utf8 text).tail = utf8 text.tail := by
  obtain ⟨rest, rfl⟩ := List.head?_eq_some_iff.mp h
  rw [utf8_cons_of_lt hmark, List.tail_cons, List.tail_cons]

/-! ## Functions that pass over the bytes of other characters -/

section Passing

variable {α : Type} {f : List UInt8 → α}

theorem apply_append_of_high
    (hf : ∀ b rest, 128 ≤ b.toNat → f (b :: rest) = f rest)
    {high : List UInt8} (hhigh : ∀ b ∈ high, 128 ≤ b.toNat) (rest : List UInt8) :
    f (high ++ rest) = f rest := by
  induction high with
  | nil => rfl
  | cons b others ih =>
      rw [List.cons_append, hf b _ (hhigh b List.mem_cons_self)]
      exact ih fun b hb => hhigh b (List.mem_cons_of_mem _ hb)

theorem apply_utf8_cons_of_high
    (hf : ∀ b rest, 128 ≤ b.toNat → f (b :: rest) = f rest)
    {c : Char} (hc : ¬ c.toNat < 128) (rest : List Char) :
    f (utf8 (c :: rest)) = f (utf8 rest) := by
  rw [utf8_cons]
  exact apply_append_of_high hf (fun b hb => le_toNat_of_mem_utf8EncodeChar hc hb) _

end Passing

end TreeGen.Text
