import TreeGen.Json.Reading

/-!
# Numerals

A numeral has an optional minus sign, a whole part without leading zeros, an optional fraction and
an optional exponent.  Reading stops behind the longest such form; what follows is the business of
the next token.

A numeral is in range when the binary floating-point number of 64 bits that it denotes is finite.
It is evaluated in the usual fast way: the leading digits that fit into 64 bits form an integer
significand, the other digits count for the scale only; the significand and the power of ten are
each rounded to 53 bits, and their product overflows when it would round to two to the power 1024.
-/

namespace TreeGen.Json.Numeral

/-! ## Reading -/

def digits (text : List Char) : List Char × List Char :=
  (text.takeWhile Char.isDigit, text.dropWhile Char.isDigit)

def sign : List Char → List Char × List Char
  | '-' :: rest => (['-'], rest)
  | text => ([], text)

def whole : List Char → Reading (List Char)
  | '0' :: rest => .ok (['0'], rest)
  | text =>
    match digits text with
    | ([], _) => .error ⟨.digitAfterMinus, text⟩
    | split => .ok split

def fraction : List Char → Reading (List Char)
  | '.' :: rest =>
    match digits rest with
    | ([], _) => .error ⟨.digitExpected, rest⟩
    | (places, behind) => .ok ('.' :: places, behind)
  | text => .ok ([], text)

/-- Split off what follows the mark of an exponent. -/
def exponentBody : List Char → Reading (List Char)
  | [] => .error ⟨.exponentExpected, []⟩
  | c :: rest =>
    if c = '+' ∨ c = '-' then
      match digits rest with
      | ([], _) => .error ⟨.digitExpected, rest⟩
      | (places, behind) => .ok (c :: places, behind)
    else
      match digits (c :: rest) with
      | ([], _) => .error ⟨.exponentExpected, c :: rest⟩
      | split => .ok split

def exponent : List Char → Reading (List Char)
  | [] => .ok ([], [])
  | c :: rest =>
    if c = 'e' ∨ c = 'E' then
      Reading.mapValue (c :: ·) (exponentBody rest)
    else .ok ([], c :: rest)

def read (text : List Char) : Except Fault (List Char × List Char) := do
  let (minus, afterSign) := sign text
  let (units, afterWhole) ← whole afterSign
  let (places, afterFraction) ← fraction afterWhole
  let (scale, behind) ← exponent afterFraction
  return (minus ++ units ++ places ++ scale, behind)

/-- Nothing is lost when digits are split off. -/
theorem digits_append (text : List Char) : (digits text).1 ++ (digits text).2 = text :=
  List.takeWhile_append_dropWhile

theorem sign_append (text : List Char) : (sign text).1 ++ (sign text).2 = text := by
  unfold sign
  split <;> rfl

theorem whole_eq_append
    {text units rest : List Char}
    (h : whole text = .ok (units, rest)) :
    text = units ++ rest ∧ units ≠ [] := by
  unfold whole at h
  split at h
  · simp only [Except.ok.injEq, Prod.mk.injEq] at h
    simp [← h.1, ← h.2]
  · split at h
    · simp at h
    · rename_i hnil
      simp only [Except.ok.injEq] at h
      have happend := digits_append text
      rw [h] at happend
      refine ⟨happend.symm, ?_⟩
      rintro rfl
      exact hnil _ h

theorem fraction_eq_append
    {text places rest : List Char}
    (h : fraction text = .ok (places, rest)) :
    text = places ++ rest := by
  unfold fraction at h
  split at h
  · rename_i tail
    split at h
    · simp at h
    · rename_i inner behind _ hdigits
      simp only [Except.ok.injEq, Prod.mk.injEq] at h
      have happend := digits_append tail
      rw [hdigits] at happend
      simp [← h.1, ← h.2, ← happend]
  · simp only [Except.ok.injEq, Prod.mk.injEq] at h
    simp [← h.1, ← h.2]

theorem exponentBody_eq_append
    {text scale rest : List Char}
    (h : exponentBody text = .ok (scale, rest)) :
    text = scale ++ rest := by
  unfold exponentBody at h
  split at h
  · simp at h
  · rename_i c tail
    split at h
    · split at h
      · simp at h
      · rename_i inner behind _ hdigits
        simp only [Except.ok.injEq, Prod.mk.injEq] at h
        have happend := digits_append tail
        rw [hdigits] at happend
        simp [← h.1, ← h.2, ← happend]
    · split at h
      · simp at h
      · simp only [Except.ok.injEq] at h
        have happend := digits_append (c :: tail)
        rw [h] at happend
        exact happend.symm

theorem exponent_eq_append
    {text scale rest : List Char}
    (h : exponent text = .ok (scale, rest)) :
    text = scale ++ rest := by
  unfold exponent at h
  split at h
  · simp only [Except.ok.injEq, Prod.mk.injEq] at h
    simp [← h.1, ← h.2]
  · split at h
    · obtain ⟨inner, hbody, rfl⟩ := (Reading.mapValue_eq_ok_iff ..).1 h
      simp [exponentBody_eq_append hbody]
    · simp only [Except.ok.injEq, Prod.mk.injEq] at h
      simp [← h.1, ← h.2]

/-- A numeral that was read stands at the start of the text and has at least one character. -/
theorem read_eq_append
    {text source rest : List Char}
    (h : read text = .ok (source, rest)) :
    text = source ++ rest ∧ source ≠ [] := by
  unfold read at h
  have hsign := sign_append text
  cases hwhole : whole (sign text).2 with
  | error fault => simp [hwhole, bind, Except.bind] at h
  | ok pair =>
    obtain ⟨units, afterWhole⟩ := pair
    cases hfraction : fraction afterWhole with
    | error fault => simp [hwhole, hfraction, bind, Except.bind] at h
    | ok pair =>
      obtain ⟨places, afterFraction⟩ := pair
      cases hexponent : exponent afterFraction with
      | error fault => simp [hwhole, hfraction, hexponent, bind, Except.bind] at h
      | ok pair =>
        obtain ⟨scale, behind⟩ := pair
        simp only [hwhole, hfraction, hexponent, bind, Except.bind, pure, Except.pure,
          Except.ok.injEq, Prod.mk.injEq] at h
        obtain ⟨hunits, hne⟩ := whole_eq_append hwhole
        rw [hunits, fraction_eq_append hfraction, exponent_eq_append hexponent] at hsign
        refine ⟨?_, ?_⟩
        · rw [← hsign, ← h.1, ← h.2]
          simp
        · rw [← h.1]
          simp [hne]

/-! ## Range -/

/-- Append digits to a significand as long as it fits into 64 bits; the digits that are left. -/
def absorb (significand : Nat) : List Char → Nat × List Char
  | [] => (significand, [])
  | c :: rest =>
    let next := significand * 10 + (c.toNat - '0'.toNat)
    if next ≤ 18446744073709551615 then absorb next rest else (significand, c :: rest)

/-- Round to 53 significant bits, a tie to the even neighbour. -/
def roundBits (n : Nat) : Nat :=
  if n.log2 < 53 then n
  else
    let unit := Nat.pow 2 (n.log2 - 52)
    let below := n / unit
    let remainder := n % unit
    if 2 * remainder > unit ∨ (2 * remainder = unit ∧ below % 2 = 1) then (below + 1) * unit
    else below * unit

/-- Whether a significand times a power of ten is beyond the finite numbers. -/
def scaledOverflows (significand : Nat) (scale : Int) : Bool :=
  if significand = 0 ∨ scale < 0 then false
  else if scale > 308 then true
  else
    decide (roundBits significand * roundBits (Nat.pow 10 scale.toNat)
      ≥ Nat.pow 2 1024 - Nat.pow 2 970)

def natValue (places : List Char) : Nat :=
  places.foldl (fun n c => n * 10 + (c.toNat - '0'.toNat)) 0

def exponentValue : List Char → Int
  | _ :: '-' :: places => -(natValue places : Int)
  | _ :: '+' :: places => natValue places
  | _ :: places => natValue places
  | [] => 0

/-- Whether the numeral's number is too large to be finite. -/
def overflows (source : List Char) : Bool :=
  let (_, unsigned) := sign source
  let (units, afterWhole) := digits unsigned
  let (places, scale) :=
    match afterWhole with
    | '.' :: rest => digits rest
    | rest => ([], rest)
  let (high, unitsLeft) := absorb 0 units
  let (significand, placesLeft) := absorb high places
  scaledOverflows significand
    (exponentValue scale + unitsLeft.length - (places.length - placesLeft.length : Nat))

end TreeGen.Json.Numeral
