/-!
# Places in a text

Labels point into a text by the number of UTF-8 bytes before them.  A place is found here by the
characters that stand before it, so an offset always lies on a character boundary.

A reader of a text keeps the part of the text that is still to come; the place it has reached is
what stands before that part, and is told by line and column.  Lines end at a line feed, and both
counts start at one.
-/

namespace TreeGen.Text

/-! ## Offsets in bytes -/

/-- The number of bytes that the UTF-8 form of some characters takes. -/
def byteLength : List Char → Nat
  | [] => 0
  | c :: rest => c.utf8Size + byteLength rest

/-- A stretch of a text, in bytes. -/
structure Span where
  offset : Nat
  length : Nat
deriving DecidableEq, Repr

def beforeFirst? (needle : List Char) : List Char → Option (List Char)
  | [] => if needle.isEmpty then some [] else none
  | c :: rest =>
    if needle.isPrefixOf (c :: rest) then some []
    else (beforeFirst? needle rest).map (c :: ·)

/-- The stretch that the first occurrence of `needle` covers. -/
def Span.ofFirst? (needle text : String) : Option Span :=
  (beforeFirst? needle.toList text.toList).map fun before =>
    ⟨byteLength before, byteLength needle.toList⟩

/-! ## Lines and columns -/

structure Position where
  /-- One more than the number of line feeds before the place. -/
  line : Nat
  /-- One more than the number of characters since the last line feed. -/
  column : Nat
deriving DecidableEq, Repr

def Position.after (before : List Char) : Position where
  line := before.count '\n' + 1
  column := (before.reverse.takeWhile (· ≠ '\n')).length + 1

/-- The place in `text` at which its last part `rest` starts. -/
def Position.ofRest (text rest : List Char) : Position :=
  .after (text.take (text.length - rest.length))

end TreeGen.Text
