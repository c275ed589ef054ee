/-!
# Bracket nesting without the grammar

Before a text is read, its brackets are counted, so that a text that nests too deeply is refused
without being read at all.  The scan goes through the bytes of the text.  It knows strings and
comments, inside which brackets do not count, and nothing else of the syntax; it works on any text,
well formed or not, and does not ask where a character ends.

The result is the rest of the bytes from the first bracket that opens one level too many.
-/

namespace TreeGen.Json.Nesting

/-- The bytes behind a string, from inside the string; a backslash hides the byte behind it. -/
def afterString (quote : UInt8) : List UInt8 → List UInt8
  | [] => []
  | [_] => []
  | b :: hidden :: rest =>
    if b = quote then hidden :: rest
    else if b = '\\'.toUInt8 then afterString quote rest
    else afterString quote (hidden :: rest)

def afterLine : List UInt8 → List UInt8
  | [] => []
  | b :: rest => if b = '\n'.toUInt8 then rest else afterLine rest

def afterBlock : List UInt8 → List UInt8
  | [] => []
  | b :: rest =>
    if b = '*'.toUInt8 ∧ rest.head? = some '/'.toUInt8 then rest.tail else afterBlock rest

theorem afterString_length_le (quote : UInt8) (bytes : List UInt8) :
    (afterString quote bytes).length ≤ bytes.length := by
  fun_induction afterString quote bytes <;> simp only [List.length_cons, List.length_nil] at * <;>
    omega

theorem afterLine_length_le (bytes : List UInt8) :
    (afterLine bytes).length ≤ bytes.length := by
  fun_induction afterLine bytes <;> simp only [List.length_cons, List.length_nil] <;> omega

theorem afterBlock_length_le (bytes : List UInt8) :
    (afterBlock bytes).length ≤ bytes.length := by
  fun_induction afterBlock bytes <;>
    simp only [List.length_cons, List.length_nil, List.length_tail] <;> omega

/-- The rest of the bytes from the first bracket that takes the nesting above `limit`, where `depth`
brackets are open already.  A closing bracket that closes nothing is passed over. -/
def excess? (limit depth : Nat) : List UInt8 → Option (List UInt8)
  | [] => none
  | b :: rest =>
    if b = '"'.toUInt8 ∨ b = '\''.toUInt8 then
      have := afterString_length_le b rest
      excess? limit depth (afterString b rest)
    else if b = '/'.toUInt8 ∧ rest.head? = some '/'.toUInt8 then
      have := afterLine_length_le rest
      excess? limit depth (afterLine rest)
    else if b = '/'.toUInt8 ∧ rest.head? = some '*'.toUInt8 then
      have := afterBlock_length_le rest.tail
      have := List.length_tail (l := rest)
      excess? limit depth (afterBlock rest.tail)
    else if b = '['.toUInt8 ∨ b = '{'.toUInt8 then
      if depth + 1 > limit then some (b :: rest) else excess? limit (depth + 1) rest
    else if b = ']'.toUInt8 ∨ b = '}'.toUInt8 then excess? limit (depth - 1) rest
    else excess? limit depth rest
termination_by bytes => bytes.length
decreasing_by all_goals simp only [List.length_cons]; omega

/-- The byte offset of the first bracket that takes the nesting of a text above `limit`. -/
def firstExcess? (text : String) (limit : Nat) : Option Nat :=
  let bytes := text.toUTF8.data.toList
  (excess? limit 0 bytes).map fun rest => bytes.length - rest.length

end TreeGen.Json.Nesting
