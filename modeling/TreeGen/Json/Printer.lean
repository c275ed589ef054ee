import TreeGen.Json

/-!
# Printing JSON

Two layouts share one printer.  The compact one writes no white space; the indented one puts every
element on a line of its own, two spaces deeper than the bracket around it, and writes empty arrays
and objects as a pair of brackets.  Strings escape the two quotes' backslash and double quote and
the characters below the space, and nothing else.
-/

namespace TreeGen.Json

def hexDigit (n : Nat) : Char :=
  if n < 10 then Char.ofNat ('0'.toNat + n) else Char.ofNat ('a'.toNat + (n - 10))

def escapeChar (c : Char) : List Char :=
  match c with
  | '"' => ['\\', '"']
  | '\\' => ['\\', '\\']
  | '\x08' => ['\\', 'b']
  | '\x0c' => ['\\', 'f']
  | '\n' => ['\\', 'n']
  | '\r' => ['\\', 'r']
  | '\t' => ['\\', 't']
  | _ =>
    if c.toNat < 32 then
      ['\\', 'u', '0', '0', hexDigit (c.toNat / 16), hexDigit (c.toNat % 16)]
    else [c]

def printString (value : String) : List Char :=
  '"' :: value.toList.flatMap escapeChar ++ ['"']

/-- The white space of a printed text. -/
structure Layout where
  /-- What stands before an element, or before the closing bracket, at a depth of brackets. -/
  gap : Nat → List Char
  afterColon : List Char

def Layout.compact : Layout where
  gap _ := []
  afterColon := []

def Layout.indented : Layout where
  gap depth := '\n' :: List.replicate (2 * depth) ' '
  afterColon := [' ']

mutual

/-- Print a value inside `depth` open brackets. -/
def print (layout : Layout) (depth : Nat) : Json → List Char
  | .null => "null".toList
  | .boolean true => "true".toList
  | .boolean false => "false".toList
  | .number source => source.toList
  | .string value => printString value
  | .array [] => ['[', ']']
  | .array (item :: items) =>
    '[' :: layout.gap (depth + 1) ++ print layout (depth + 1) item
      ++ printItems layout (depth + 1) items ++ layout.gap depth ++ [']']
  | .object [] => ['{', '}']
  | .object (member :: members) =>
    '{' :: layout.gap (depth + 1) ++ printMember layout (depth + 1) member
      ++ printMembers layout (depth + 1) members ++ layout.gap depth ++ ['}']

def printItems (layout : Layout) (depth : Nat) : List Json → List Char
  | [] => []
  | item :: items =>
    ',' :: layout.gap depth ++ print layout depth item ++ printItems layout depth items

def printMember (layout : Layout) (depth : Nat) : String × Json → List Char
  | (key, value) => printString key ++ ':' :: layout.afterColon ++ print layout depth value

def printMembers (layout : Layout) (depth : Nat) : List (String × Json) → List Char
  | [] => []
  | member :: members =>
    ',' :: layout.gap depth ++ printMember layout depth member
      ++ printMembers layout depth members

end

def compact (json : Json) : String :=
  String.ofList (print .compact 0 json)

def pretty (json : Json) : String :=
  String.ofList (print .indented 0 json)

end TreeGen.Json
