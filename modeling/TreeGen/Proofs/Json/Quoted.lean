import TreeGen.Json.Printer
import TreeGen.Json.Quoted

/-!
# Printed strings read back

A printed string escapes the backslash, the double quote and the control characters, each by an
escape that stands for just this character.  Every other character stands for itself.  So reading
the inside of a printed string gives its characters one by one.
-/

namespace TreeGen.Json.Quoted

open Text

theorem character?_toNat (c : Char) : character? c.toNat = some c := by
  have hvalid : c.toNat.isValidChar := c.valid
  rw [character?, if_pos hvalid, Char.ofNat_toNat]

theorem codePoint_hexDigits {c : Char} (h : c.toNat < 32) :
    codePoint ['0', '0', hexDigit (c.toNat / 16), hexDigit (c.toNat % 16)] = .ok c := by
  have hall : ∀ n < 32, hexNumber? ['0', '0', hexDigit (n / 16), hexDigit (n % 16)] = some n := by
    decide
  rw [codePoint, hall c.toNat h]
  simp only [character?_toNat]

theorem body_plain
    {c : Char} (start rest : List Char) (hquote : c ≠ '"') (hbackslash : c ≠ '\\') :
    body '"' start (c :: rest) = Reading.mapValue (c :: ·) (body '"' start rest) := by
  rw [body, if_neg hquote]
  all_goals simp_all

theorem body_escapeChar (start rest : List Char) (c : Char) :
    body '"' start (escapeChar c ++ rest) =
      Reading.mapValue (c :: ·) (body '"' start rest) := by
  unfold escapeChar
  split
  case h_8 hquote hbackslash _ _ _ _ _ =>
    by_cases hcontrol : c.toNat < 32
    · rw [if_pos hcontrol, List.cons_append, List.cons_append]
      simp only [List.cons_append, List.nil_append]
      rw [body, codePoint_hexDigits hcontrol]
    · rw [if_neg hcontrol]
      exact body_plain start rest hquote hbackslash
  all_goals rfl

theorem body_flatMap_escapeChar (start text rest : List Char) :
    body '"' start (text.flatMap escapeChar ++ '"' :: rest) = .ok (text, rest) := by
  induction text with
  | nil =>
      rw [List.flatMap_nil, List.nil_append, body, if_pos rfl]
      all_goals simp
  | cons c text ih =>
      rw [List.flatMap_cons, List.append_assoc, body_escapeChar, ih]
      rfl

end TreeGen.Json.Quoted
