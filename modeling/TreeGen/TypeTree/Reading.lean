import TreeGen.InputError
import TreeGen.Json.Nesting
import TreeGen.Json.Reader
import TreeGen.Node.Measure
import TreeGen.TypeTree.Nodes

/-!
# Reading a type tree

A type tree is a JSON array of nodes.  Depth is limited twice: the brackets of the text are counted
before it is read, with room for two brackets a level and for some nesting in ignored members, and
the levels of nodes are counted while the nodes are read.
-/

namespace TreeGen.TypeTree

open Text (Span)

/-- The bracket nesting that a text may have when its nodes may have `limit` levels: an object and
an array for each level, and sixteen brackets besides, capped at the largest limit there is. -/
def bracketLimit (limit : Nat) : Nat :=
  min (2 * limit + 16) largestLimit

/-- The first place where a name stands between double quotes; an empty name has none. -/
def nameSpan? (text : String) : Option String → Option Span
  | none => none
  | some name => if name = "" then none else Span.ofFirst? ("\"" ++ name ++ "\"") text

def Fault.toInputError (text : String) (limit : Nat) : Fault → InputError
  | .broken path complaint =>
    .badNode path.text complaint.violation.message (nameSpan? text complaint.name)
  | .tooDeep path => .tooDeep path.text limit none

def readDocument (limit : Nat) : Json → Except Fault (List Node)
  | .array items => readNodes limit [] 0 items
  | other => .error (.broken [] ⟨.notArray other.kind, none⟩)

/-- Read the roots of a type tree whose nodes have at most `limit` levels. -/
def read (source : Source) (limit : Nat) : Except InputError (List Node) :=
  match Json.Nesting.firstExcess? source.text (bracketLimit limit) with
  | some offset => .error (.tooDeep ("offset " ++ toString offset) limit (some ⟨offset, 1⟩))
  | none =>
    match Json.read source.text with
    | .error fault => .error (.malformed (fault.message source.text.toList))
    | .ok none => .error (.emptyInput source.filename)
    | .ok (some .null) => .error (.emptyInput source.filename)
    | .ok (some document) =>
      match readDocument limit document with
      | .error fault => .error (fault.toInputError source.text limit)
      | .ok roots => .ok roots

end TreeGen.TypeTree
