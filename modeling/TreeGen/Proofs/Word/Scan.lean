import Mathlib.Algebra.Group.Nat.Defs
import TreeGen.Proofs.Json.Nesting.Characters
import TreeGen.Proofs.Word.Counter

/-!
# The nesting scan with counters of 64 bits

The scan of the brackets as a machine runs it: it goes through the bytes by their numbers, with one
loop inside another, and both the number of a byte and the depth of the nesting have 64 bits.  A
loop gives nothing when a counter overflows; otherwise its counter grows, so it comes to an end.

No counter overflows on a text of fewer bytes than half the numbers there are.  The number of a byte
goes at most two beyond the last byte, as at the end of a text that breaks off behind a backslash,
and the depth is never larger than the number of the byte.
-/

namespace TreeGen.Word

open Json.Nesting

/-! ## The loops -/

/-- The number of a byte at which a loop ends that started at the byte `i`. -/
abbrev From (i : UInt64) : Type :=
  { last : UInt64 // i.toNat ≤ last.toNat }

/-- A loop that ends is no shorter when it starts earlier. -/
def From.since {i j : UInt64} (h : i.toNat ≤ j.toNat) (last : From j) : From i :=
  ⟨last.val, Nat.le_trans h last.property⟩

theorem Next.lt {i : UInt64} (next : Next i) : i.toNat < next.val.toNat := by
  rw [next.property]
  exact Nat.lt_succ_self i.toNat

/-- The number of the byte that ends a string, from inside the string; it is none of the text when
the string does not end. -/
def stringEnd (bytes : List UInt8) (quote : UInt8) (i : UInt64) : Option (From i) :=
  match bytes[i.toNat]? with
  | none => some ⟨i, Nat.le_refl _⟩
  | some b =>
    if b = quote then some ⟨i, Nat.le_refl _⟩
    else do
      let next ← next? i
      if b = '\\'.toUInt8 then do
        let behind ← next? next
        let hle := Nat.le_of_lt (Nat.lt_trans next.lt behind.lt)
        (stringEnd bytes quote behind).map (From.since hle)
      else (stringEnd bytes quote next).map (From.since (Nat.le_of_lt next.lt))
termination_by largestLimit - i.toNat
decreasing_by
  · exact left_lt_left (Nat.lt_trans next.lt behind.lt)
  · exact left_lt_left next.lt

def lineEnd (bytes : List UInt8) (i : UInt64) : Option (From i) :=
  match bytes[i.toNat]? with
  | none => some ⟨i, Nat.le_refl _⟩
  | some b =>
    if b = '\n'.toUInt8 then some ⟨i, Nat.le_refl _⟩
    else do
      let next ← next? i
      (lineEnd bytes next).map (From.since (Nat.le_of_lt next.lt))
termination_by largestLimit - i.toNat
decreasing_by exact left_lt_left next.lt

def blockEnd (bytes : List UInt8) (i : UInt64) : Option (From i) := do
  let next ← next? i
  let last : From i := ⟨next, Nat.le_of_lt next.lt⟩
  match bytes[i.toNat]? with
  | none => some last
  | some b =>
    if b = '*'.toUInt8 ∧ bytes[next.val.toNat]? = some '/'.toUInt8 then some last
    else (blockEnd bytes next).map (From.since last.property)
termination_by largestLimit - i.toNat
decreasing_by exact left_lt_left next.lt

/-- The number of the first byte, from the byte `i` on, that takes the nesting above `limit`, where
`depth` brackets are open already. -/
def scan (bytes : List UInt8) (limit depth i : UInt64) : Option (Option UInt64) :=
  match bytes[i.toNat]? with
  | none => some none
  | some b => do
    let next ← next? i
    if b = '"'.toUInt8 ∨ b = '\''.toUInt8 then do
      let last ← stringEnd bytes b next
      let behind ← next? last
      scan bytes limit depth behind
    else if b = '/'.toUInt8 ∧ bytes[next.val.toNat]? = some '/'.toUInt8 then do
      let last ← lineEnd bytes i
      let behind ← next? last
      scan bytes limit depth behind
    else if b = '/'.toUInt8 ∧ bytes[next.val.toNat]? = some '*'.toUInt8 then do
      let inside ← next? next
      let last ← blockEnd bytes inside
      let behind ← next? last
      scan bytes limit depth behind
    else if b = '['.toUInt8 ∨ b = '{'.toUInt8 then do
      let deeper ← next? depth
      if deeper > limit then some (some i) else scan bytes limit deeper next
    else if b = ']'.toUInt8 ∨ b = '}'.toUInt8 then scan bytes limit (previous depth) next
    else scan bytes limit depth next
termination_by largestLimit - i.toNat
decreasing_by
  · have := Nat.lt_of_le_of_lt last.property behind.lt
    exact left_lt_left (Nat.lt_trans next.lt this)
  · exact left_lt_left (Nat.lt_of_le_of_lt last.property behind.lt)
  · have := Nat.lt_of_le_of_lt last.property behind.lt
    exact left_lt_left (Nat.lt_trans (Nat.lt_trans next.lt inside.lt) this)
  all_goals exact left_lt_left next.lt

def firstExcess? (text : String) (limit : UInt64) : Option (Option UInt64) :=
  scan text.toUTF8.data.toList limit 0 0

/-! ## What the loops give -/

section

variable {bytes : List UInt8} {i : UInt64} {b : UInt8}

theorem drop_of_getElem?_eq_none (h : bytes[i.toNat]? = none) : bytes.drop i.toNat = [] :=
  List.drop_eq_nil_of_le (List.getElem?_eq_none_iff.mp h)

theorem drop_of_getElem?_eq_some (h : bytes[i.toNat]? = some b) (next : Next i) :
    next.val.toNat ≤ bytes.length ∧ bytes.drop i.toNat = b :: bytes.drop next.val.toNat := by
  obtain ⟨hi, rfl⟩ := List.getElem?_eq_some_iff.mp h
  rw [next.property]
  exact ⟨hi, List.drop_eq_getElem_cons hi⟩

theorem afterString_escape
    {quote : UInt8} (hquote : '\\'.toUInt8 ≠ quote) (rest : List UInt8) :
    afterString quote ('\\'.toUInt8 :: rest) = afterString quote rest.tail := by
  cases rest with
  | nil => rfl
  | cons hidden rest => rw [afterString, if_neg hquote, if_pos rfl, List.tail_cons]

/-- A computation gives the number of the last byte before `rest`. -/
def StopsBefore
    (bytes : List UInt8) (rest : List UInt8) (computation : Option (From i)) : Prop :=
  ∃ last, computation = some last ∧ last.val.toNat ≤ bytes.length + 1 ∧
    rest = bytes.drop (last.val.toNat + 1)

theorem StopsBefore.since
    {j : UInt64} {rest : List UInt8} {computation : Option (From j)}
    (h : StopsBefore bytes rest computation) (hle : i.toNat ≤ j.toNat) :
    StopsBefore bytes rest (computation.map (From.since hle)) := by
  obtain ⟨last, rfl, hend, hrest⟩ := h
  exact ⟨last.since hle, rfl, hend, hrest⟩

theorem stopsBefore_of_getElem?_eq_none
    {last : From i} (h : bytes[i.toNat]? = none) (hlast : last.val.toNat ≤ bytes.length + 1) :
    StopsBefore bytes [] (some last) := by
  have hend := List.getElem?_eq_none_iff.mp h
  have hfrom := last.property
  exact ⟨last, rfl, hlast, (List.drop_eq_nil_of_le (by omega)).symm⟩

variable (hsize : bytes.length < 2 ^ 63)
include hsize

theorem exists_next?_of_le (hi : i.toNat ≤ bytes.length + 2) : ∃ next, next? i = some next := by
  apply exists_next? i
  rw [largestLimit]
  omega

theorem stringEnd_stops (quote : UInt8) (hi : i.toNat ≤ bytes.length + 1) :
    StopsBefore bytes (afterString quote (bytes.drop i.toNat)) (stringEnd bytes quote i) := by
  fun_induction stringEnd bytes quote i with
  | case1 i hget =>
      rw [drop_of_getElem?_eq_none hget, afterString]
      exact stopsBefore_of_getElem?_eq_none hget hi
  | case2 i hget =>
      obtain ⟨next, -⟩ := exists_next?_of_le hsize (Nat.le_succ_of_le hi)
      obtain ⟨-, hdrop⟩ := drop_of_getElem?_eq_some hget next
      refine ⟨_, rfl, hi, ?_⟩
      rw [hdrop, afterString_quote, next.property]
  | case3 i b hget hquote ihBehind ihNext =>
      obtain ⟨next, hnext⟩ := exists_next?_of_le hsize (Nat.le_succ_of_le hi)
      obtain ⟨hend, hdrop⟩ := drop_of_getElem?_eq_some hget next
      rw [hnext, hdrop, Option.bind_eq_bind, Option.bind_some]
      by_cases hslash : b = '\\'.toUInt8
      · obtain ⟨behind, hbehind⟩ :=
          exists_next?_of_le hsize (i := next) (Nat.le_add_right_of_le hend)
        have hafter : afterString quote (b :: bytes.drop next.val.toNat) =
            afterString quote (bytes.drop behind.val.toNat) := by
          rw [hslash, afterString_escape (hslash ▸ hquote), List.tail_drop, behind.property]
        rw [if_pos hslash, hbehind, hafter, Option.bind_eq_bind, Option.bind_some]
        exact (ihBehind next behind (by rw [behind.property]; omega)).since _
      · rw [if_neg hslash, afterString_pass hquote hslash]
        exact (ihNext next (by omega)).since _

theorem lineEnd_stops (hi : i.toNat ≤ bytes.length + 1) :
    StopsBefore bytes (afterLine (bytes.drop i.toNat)) (lineEnd bytes i) := by
  fun_induction lineEnd bytes i with
  | case1 i hget =>
      rw [drop_of_getElem?_eq_none hget, afterLine]
      exact stopsBefore_of_getElem?_eq_none hget hi
  | case2 i hget =>
      obtain ⟨next, -⟩ := exists_next?_of_le hsize (Nat.le_succ_of_le hi)
      obtain ⟨-, hdrop⟩ := drop_of_getElem?_eq_some hget next
      refine ⟨_, rfl, hi, ?_⟩
      rw [hdrop, afterLine, if_pos rfl, next.property]
  | case3 i b hget hbreak ih =>
      obtain ⟨next, hnext⟩ := exists_next?_of_le hsize (Nat.le_succ_of_le hi)
      obtain ⟨hend, hdrop⟩ := drop_of_getElem?_eq_some hget next
      rw [hnext, hdrop, Option.bind_eq_bind, Option.bind_some, afterLine, if_neg hbreak]
      exact (ih next (by omega)).since _

theorem blockEnd_stops (hi : i.toNat ≤ bytes.length) :
    StopsBefore bytes (afterBlock (bytes.drop i.toNat)) (blockEnd bytes i) := by
  fun_induction blockEnd bytes i with
  | case1 i ih =>
      obtain ⟨next, hnext⟩ := exists_next?_of_le hsize (Nat.le_add_right_of_le hi)
      have hlast : next.val.toNat ≤ bytes.length + 1 := by
        rw [next.property]
        omega
      rw [hnext, Option.bind_eq_bind, Option.bind_some]
      dsimp only
      cases hget : bytes[i.toNat]? with
      | none =>
          rw [drop_of_getElem?_eq_none hget, afterBlock]
          exact stopsBefore_of_getElem?_eq_none hget hlast
      | some b =>
          obtain ⟨hend, hdrop⟩ := drop_of_getElem?_eq_some hget next
          rw [hdrop, afterBlock, List.head?_drop]
          dsimp only
          by_cases hclose : b = '*'.toUInt8 ∧ bytes[next.val.toNat]? = some '/'.toUInt8
          · rw [if_pos hclose, if_pos hclose, List.tail_drop]
            exact ⟨_, rfl, hlast, rfl⟩
          · rw [if_neg hclose, if_neg hclose]
            exact (ih next hend).since _

end

/-! ## What the scan gives -/

/-- A computation finds out whether there is a rest, and the number of the byte it starts at. -/
def Finds
    (bytes : List UInt8) (rest : Option (List UInt8))
    (computation : Option (Option UInt64)) : Prop :=
  ∃ found, computation = some found ∧
    found.map UInt64.toNat = rest.map fun rest => bytes.length - rest.length

/-- At an opening bracket the scan ends or goes on one level deeper. -/
theorem finds_open
    {bytes : List UInt8} {limit depth i : UInt64} {b : UInt8} {next : Next i} (deeper : Next depth)
    (hdrop : bytes.drop i.toNat = b :: bytes.drop next.val.toNat) (hi : i.toNat ≤ bytes.length)
    (hdeeper : Finds bytes (excess? limit.toNat deeper.val.toNat (bytes.drop next.val.toNat))
      (scan bytes limit deeper next)) :
    Finds bytes
      (if depth.toNat + 1 > limit.toNat then some (b :: bytes.drop next.val.toNat)
        else excess? limit.toNat (depth.toNat + 1) (bytes.drop next.val.toNat))
      (if deeper > limit then some (some i) else scan bytes limit deeper next) := by
  rw [deeper.property] at hdeeper
  have hexcess : deeper.val > limit ↔ depth.toNat + 1 > limit.toNat := by
    rw [gt_iff_lt, UInt64.lt_iff_toNat_lt, deeper.property]
  by_cases hlimit : depth.toNat + 1 > limit.toNat
  · have hoffset : bytes.length - (bytes.drop i.toNat).length = i.toNat := by
      rw [List.length_drop]
      omega
    rw [if_pos (hexcess.mpr hlimit), if_pos hlimit, ← hdrop]
    exact ⟨some i, rfl, by rw [Option.map_some, Option.map_some, hoffset]⟩
  · rw [if_neg (mt hexcess.mp hlimit), if_neg hlimit]
    exact hdeeper

section

variable {bytes : List UInt8} (hsize : bytes.length < 2 ^ 63)
include hsize

theorem finds_behind
    {limit depth i : UInt64} {rest : List UInt8} {computation : Option (From i)}
    (h : StopsBefore bytes rest computation)
    (hbehind : ∀ (last : From i) (behind : Next last), i.toNat < behind.val.toNat →
      behind.val.toNat ≤ bytes.length + 2 →
        Finds bytes (excess? limit.toNat depth.toNat (bytes.drop behind.val.toNat))
          (scan bytes limit depth behind)) :
    Finds bytes (excess? limit.toNat depth.toNat rest)
      (computation.bind fun last => (next? last).bind fun behind =>
        scan bytes limit depth behind) := by
  obtain ⟨last, rfl, hend, rfl⟩ := h
  obtain ⟨behind, hnext⟩ := exists_next?_of_le hsize (i := last) (Nat.le_succ_of_le hend)
  have hfinds := hbehind last behind (Nat.lt_of_le_of_lt last.property behind.lt)
  rw [behind.property] at hfinds
  rw [Option.bind_some, hnext, Option.bind_some]
  exact hfinds (Nat.succ_le_succ hend)

/-- The depth is at most the number of the byte, so neither of them overflows. -/
theorem scan_finds
    {depth i : UInt64} (limit : UInt64)
    (hi : i.toNat ≤ bytes.length + 2) (hdepth : depth.toNat ≤ i.toNat) :
    Finds bytes (excess? limit.toNat depth.toNat (bytes.drop i.toNat))
      (scan bytes limit depth i) := by
  fun_induction scan bytes limit depth i with
  | case1 depth i hget =>
      rw [drop_of_getElem?_eq_none hget, excess?]
      exact ⟨none, rfl, rfl⟩
  | case2 depth i b hget ihString ihLine ihBlock ihOpen ihClose ihOther =>
      obtain ⟨next, hnext⟩ := exists_next?_of_le hsize hi
      obtain ⟨hend, hdrop⟩ := drop_of_getElem?_eq_some hget next
      have hlt := next.lt
      rw [hnext, hdrop, excess?, List.head?_drop]
      simp only [Option.bind_eq_bind, Option.bind_some]
      split
      · refine finds_behind hsize (stringEnd_stops hsize b (by omega)) ?_
        intro last behind hfrom hto
        exact ihString next last behind hto (by omega)
      split
      · rename_i hline
        have hbreak : b ≠ '\n'.toUInt8 := by
          rw [hline.1]
          decide
        have hrest : afterLine (bytes.drop i.toNat) = afterLine (bytes.drop next.val.toNat) := by
          rw [hdrop, afterLine, if_neg hbreak]
        refine finds_behind hsize (hrest ▸ lineEnd_stops hsize (by omega)) ?_
        intro last behind hfrom hto
        exact ihLine last behind hto (by omega)
      split
      · rename_i hblock
        have hwithin : next.val.toNat < bytes.length := (List.getElem?_eq_some_iff.mp hblock.2).1
        obtain ⟨inside, hinside⟩ := exists_next?_of_le hsize (i := next) (by omega)
        have hvalue := inside.property
        have hrest : (bytes.drop next.val.toNat).tail = bytes.drop inside.val.toNat := by
          rw [List.tail_drop, hvalue]
        rw [hinside, Option.bind_some, hrest]
        refine finds_behind hsize (blockEnd_stops hsize (by omega)) ?_
        intro last behind hfrom hto
        exact ihBlock next inside last behind hto (by omega)
      split
      · obtain ⟨deeper, hdeeper⟩ := exists_next?_of_le hsize (i := depth) (by omega)
        have hvalue := deeper.property
        rw [hdeeper, Option.bind_some]
        exact finds_open deeper hdrop (by omega) (ihOpen next deeper (by omega) (by omega))
      split
      · rw [← toNat_previous]
        refine ihClose next (by omega) ?_
        rw [toNat_previous]
        omega
      · exact ihOther next (by omega) (by omega)

end

/-- On a text of fewer than half as many bytes as there are numbers, the scan ends with what the
counting scan without bounds gives. -/
theorem firstExcess?_finds
    {text : String} (hsize : text.utf8ByteSize < 2 ^ 63) (limit : UInt64) :
    ∃ found, firstExcess? text limit = some found ∧
      found.map UInt64.toNat = Json.Nesting.firstExcess? text limit.toNat := by
  rw [← Text.length_toUTF8] at hsize
  exact scan_finds hsize limit (Nat.zero_le _) (Nat.le_refl _)

end TreeGen.Word
