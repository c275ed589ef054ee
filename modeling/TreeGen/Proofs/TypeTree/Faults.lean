import TreeGen.Proofs.TypeTree.Places
import TreeGen.TypeTree.Reading

/-!
# The fault that is reported

The rules on the own fields of a node are stated one by one, each without regard to the others, and
listed in the order in which they are checked.  A document that is refused is refused for the first
value, in pre-order, that lies below the limit or breaks one of these rules: with the limit in the
first case, and in the second with the message of the first rule that the value breaks.
-/

namespace TreeGen.TypeTree

/-! ## The rules on own fields -/

/-- A rule on a value that is to be a node; all but the first speak of the members of an object. -/
inductive Rule where
  | object
  /-- The field is a string, null or absent. -/
  | text (field : Field)
  /-- The field is neither null nor absent. -/
  | given (field : Field)
  | childArray
deriving DecidableEq, Repr

namespace Rule

def inOrder : List Rule :=
  [.object, .text .name, .given .name, .text .classification, .given .classification, .text .type,
    .childArray]

def violationOfMembers? (members : List (String × Json)) : Rule → Option Violation
  | .object => none
  | .text field =>
    match field.value? members with
    | none | some .null | some (.string _) => none
    | some other => some (.notString field other.kind)
  | .given field =>
    match field.value? members with
    | none | some .null => some (.missing field)
    | some _ => none
  | .childArray =>
    match Field.children.value? members with
    | none | some .null | some (.array _) => none
    | some other => some (.childrenNotArray other.kind)

/-- The way in which a value breaks a rule, if it does. -/
def violation? (rule : Rule) : Json → Option Violation
  | .object members => rule.violationOfMembers? members
  | other => if rule = .object then some (.notObject other.kind) else none

end Rule

/-- The violation of the first rule that a value breaks; `none` for a value that obeys them all. -/
def firstViolation? (value : Json) : Option Violation :=
  Rule.inOrder.findSome? fun rule => rule.violation? value

def violationOf? {α : Type} : Except Violation α → Option Violation
  | .error violation => some violation
  | .ok _ => none

section

variable (field : Field) (members : List (String × Json))

theorem violationOf?_textField? :
    violationOf? (textField? field members) = (Rule.text field).violationOfMembers? members := by
  rw [textField?, Rule.violationOfMembers?]
  cases field.value? members with
  | none => rfl
  | some value => cases value <;> rfl

theorem violationOf?_textField :
    violationOf? (textField field members) =
      ((Rule.text field).violationOfMembers? members).or
        ((Rule.given field).violationOfMembers? members) := by
  rw [textField, textField?, Rule.violationOfMembers?, Rule.violationOfMembers?]
  cases field.value? members with
  | none => rfl
  | some value => cases value <;> rfl

theorem violationOf?_childValues :
    violationOf? (childValues members) = Rule.childArray.violationOfMembers? members := by
  rw [childValues, Rule.violationOfMembers?]
  cases Field.children.value? members with
  | none => rfl
  | some value => cases value <;> rfl

end

theorem findSome?_cons_eq_or {α β : Type} (f : α → Option β) (first : α) (rest : List α) :
    (first :: rest).findSome? f = (f first).or (rest.findSome? f) := by
  rw [List.findSome?_cons]
  cases f first <;> rfl

/-- The rules on the members of an object come in groups, one for each field that is read. -/
theorem firstViolation?_object (members : List (String × Json)) :
    firstViolation? (.object members) =
      (violationOf? (textField .name members)).or
        ((violationOf? (textField .classification members)).or
          ((violationOf? (textField? .type members)).or (violationOf? (childValues members)))) := by
  rw [violationOf?_textField, violationOf?_textField, violationOf?_textField?,
    violationOf?_childValues, firstViolation?, Rule.inOrder]
  simp only [findSome?_cons_eq_or, List.findSome?_nil, Option.or_none, Option.or_assoc,
    Rule.violation?]
  rw [Rule.violationOfMembers?, Option.none_or]

/-- Reading own fields finds the first rule that is broken, whatever else is wrong. -/
theorem firstViolation?_eq (value : Json) :
    firstViolation? value =
      match ownFields value with
      | .error complaint => some complaint.violation
      | .ok _ => none := by
  cases value with
  | object members =>
      rw [firstViolation?_object, ownFields, ownFieldsOfMembers]
      cases textField .name members with
      | error violation => rfl
      | ok name =>
          cases textField .classification members with
          | error violation => rfl
          | ok classification =>
              cases textField? .type members with
              | error violation => rfl
              | ok declaredType => cases childValues members <;> rfl
  | _ => rfl

/-! ## The first value with a fault -/

end TreeGen.TypeTree
