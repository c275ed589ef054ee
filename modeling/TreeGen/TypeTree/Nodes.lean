import TreeGen.Node
import TreeGen.TypeTree.Field

/-!
# From JSON values to nodes

A value is a node when it is an object whose name and classification are strings, whose type is a
string, null or absent, and whose children are an array of nodes, null or absent.  Nodes lie on
levels, the roots on the first, and none may lie below a given level.

The values are visited in pre-order, up to the first one that breaks a rule.  The rules on a value's
own fields are checked before any of its children is visited.
-/

namespace TreeGen.TypeTree

/-- The place of a value: the index of its root, then the index in the children at every level.
The empty path is the place of the whole document. -/
abbrev NodePath := List Nat

def NodePath.text : NodePath → String
  | [] => "$"
  | root :: steps =>
    "[" ++ toString root ++ "]"
      ++ String.join (steps.map fun index => ".Children[" ++ toString index ++ "]")

inductive Violation where
  | notArray (found : Json.Kind)
  | notObject (found : Json.Kind)
  | notString (field : Field) (found : Json.Kind)
  | missing (field : Field)
  | childrenNotArray (found : Json.Kind)
deriving DecidableEq, Repr

def Violation.message : Violation → String
  | .notArray found => "expected an array of type nodes, found " ++ found.description
  | .notObject found => "expected an object, found " ++ found.description
  | .notString field found =>
    "field `" ++ field.text ++ "` must be a string, found " ++ found.description
  | .missing field => "missing required field `" ++ field.text ++ "`"
  | .childrenNotArray found => "field `Children` must be an array, found " ++ found.description

/-- A broken rule, with the node's name when it was known by then. -/
structure Complaint where
  violation : Violation
  name : Option String
deriving DecidableEq, Repr

/-- What a node object says about the node itself, its children not yet looked at. -/
structure OwnFields where
  name : String
  classification : String
  declaredType : Option String
  children : List Json
deriving Repr

/-- The text of an optional field; null counts as absent. -/
def textField? (field : Field) (members : List (String × Json)) :
    Except Violation (Option String) :=
  match field.value? members with
  | none => .ok none
  | some .null => .ok none
  | some (.string text) => .ok (some text)
  | some other => .error (.notString field other.kind)

def textField (field : Field) (members : List (String × Json)) : Except Violation String :=
  match textField? field members with
  | .error violation => .error violation
  | .ok none => .error (.missing field)
  | .ok (some text) => .ok text

/-- The values of the children; null counts as absent, and absent children are none. -/
def childValues (members : List (String × Json)) : Except Violation (List Json) :=
  match Field.children.value? members with
  | none => .ok []
  | some .null => .ok []
  | some (.array items) => .ok items
  | some other => .error (.childrenNotArray other.kind)

def ownFieldsOfMembers (members : List (String × Json)) : Except Complaint OwnFields :=
  match textField .name members with
  | .error violation => .error ⟨violation, none⟩
  | .ok name =>
    match textField .classification members with
    | .error violation => .error ⟨violation, some name⟩
    | .ok classification =>
      match textField? .type members with
      | .error violation => .error ⟨violation, some name⟩
      | .ok declaredType =>
        match childValues members with
        | .error violation => .error ⟨violation, some name⟩
        | .ok children => .ok ⟨name, classification, declaredType, children⟩

def ownFields : Json → Except Complaint OwnFields
  | .object members => ownFieldsOfMembers members
  | other => .error ⟨.notObject other.kind, none⟩

/-! ## The children are smaller -/

theorem sizeOf_nil_lt_object (members : List (String × Json)) :
    sizeOf ([] : List Json) < sizeOf (Json.object members) := by
  rw [List.nil.sizeOf_spec, Json.object.sizeOf_spec]
  cases members with
  | nil => rw [List.nil.sizeOf_spec]; omega
  | cons first rest => rw [List.cons.sizeOf_spec]; omega

theorem sizeOf_childValues_lt
    {members : List (String × Json)} {children : List Json}
    (h : childValues members = .ok children) :
    sizeOf children < sizeOf (Json.object members) := by
  unfold childValues at h
  split at h
  · simp only [Except.ok.injEq] at h
    exact h ▸ sizeOf_nil_lt_object members
  · simp only [Except.ok.injEq] at h
    exact h ▸ sizeOf_nil_lt_object members
  · rename_i items hvalue
    simp only [Except.ok.injEq] at h
    obtain ⟨key, mem⟩ := Field.mem_of_value?_eq_some hvalue
    have := List.sizeOf_lt_of_mem mem
    simp only [Prod.mk.sizeOf_spec, Json.array.sizeOf_spec] at this
    rw [← h, Json.object.sizeOf_spec]
    omega
  · simp at h

theorem childValues_of_ownFieldsOfMembers
    {members : List (String × Json)} {fields : OwnFields}
    (h : ownFieldsOfMembers members = .ok fields) :
    childValues members = .ok fields.children := by
  unfold ownFieldsOfMembers at h
  split at h
  · cases h
  · split at h
    · cases h
    · split at h
      · cases h
      · split at h
        · cases h
        · rename_i children hchildren
          cases h
          exact hchildren

theorem sizeOf_children_lt
    {json : Json} {fields : OwnFields}
    (h : ownFields json = .ok fields) :
    sizeOf fields.children < sizeOf json := by
  unfold ownFields at h
  split at h
  · exact sizeOf_childValues_lt (childValues_of_ownFieldsOfMembers h)
  · simp at h

/-! ## The nodes of a document -/

inductive Fault where
  | broken (path : NodePath) (complaint : Complaint)
  | tooDeep (path : NodePath)
deriving DecidableEq, Repr

mutual

/-- The node that the value at `path` denotes; the length of the path is the value's level. -/
def readNode (limit : Nat) (path : NodePath) (json : Json) : Except Fault Node :=
  if path.length > limit then .error (.tooDeep path)
  else
    match h : ownFields json with
    | .error complaint => .error (.broken path complaint)
    | .ok fields =>
      have := sizeOf_children_lt h
      match readNodes limit path 0 fields.children with
      | .error fault => .error fault
      | .ok children =>
        .ok ⟨fields.name, fields.classification, fields.declaredType, children⟩
termination_by sizeOf json

/-- The nodes that the values below `path` denote, from the index `index` on. -/
def readNodes (limit : Nat) (path : NodePath) (index : Nat) :
    List Json → Except Fault (List Node)
  | [] => .ok []
  | item :: items =>
    match readNode limit (path ++ [index]) item with
    | .error fault => .error fault
    | .ok node =>
      match readNodes limit path (index + 1) items with
      | .error fault => .error fault
      | .ok nodes => .ok (node :: nodes)
termination_by items => sizeOf items

end

end TreeGen.TypeTree
