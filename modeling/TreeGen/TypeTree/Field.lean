import TreeGen.Json
import TreeGen.Table

/-!
# The fields of a node object

A node is written as an object with up to four fields.  Keys are compared without regard to the
case of ASCII letters, and other keys are ignored.

An object may spell a field more than once.  First, equal keys are merged: the key stays where it
was first written and takes the value written last.  Then, of the remaining spellings of a field,
the last one counts.
-/

namespace TreeGen.TypeTree

/-- A field of a node object. -/
inductive Field where
  | name
  | classification
  | type
  | children
deriving DecidableEq, Repr

namespace Field

def text : Field → String
  | .name => "Name"
  | .classification => "Classification"
  | .type => "Type"
  | .children => "Children"

/-- Whether a key spells the field, whatever the case of its letters. -/
def spelledBy (field : Field) (key : String) : Bool :=
  key.toList.map Char.toLower == field.text.toList.map Char.toLower

/-- The members of an object once equal keys are merged. -/
def merged (members : List (String × Json)) : List (String × Json) :=
  (Table.ofList members).entries

/-- The value that counts for a field. -/
def value? (field : Field) (members : List (String × Json)) : Option Json :=
  ((merged members).findRev? fun member => field.spelledBy member.1).map Prod.snd

theorem mem_of_value?_eq_some
    {field : Field} {members : List (String × Json)} {value : Json}
    (h : field.value? members = some value) :
    ∃ key, (key, value) ∈ members := by
  simp only [value?, Option.map_eq_some_iff] at h
  obtain ⟨⟨key, value'⟩, hfind, rfl⟩ := h
  rw [List.findRev?_eq_find?_reverse] at hfind
  exact ⟨key, Table.mem_of_mem_ofList (List.mem_reverse.1 (List.mem_of_find?_eq_some hfind))⟩

end Field

end TreeGen.TypeTree
