import Mathlib.Data.List.Forall2
import TreeGen.Proofs.TypeTree.Nodes
import TreeGen.Proofs.TypeTree.Reading

/-!
# The documents that are type trees

What a type tree is can be said without saying how it is read.  An object states the fields of a
node through the last entry that spells each field, a value is a well-formed node when it states
them and its children are well-formed nodes one level further down, and a node mirrors a value when
it carries the stated fields over the mirrors of the children.

The reader accepts the well-formed documents and no others, and the roots that it gives are the only
ones that mirror the document.
-/

namespace TreeGen.TypeTree

/-! ## The entry that counts -/

/-- What the entries of an object hold for a field: nothing when no key spells the field, and
otherwise the value of the last entry whose key does. -/
inductive Field.Holds (field : Field) (entries : List (String × Json)) : Option Json → Prop where
  | absent (unspelled : ∀ entry ∈ entries, ¬ field.spelledBy entry.1) :
      Holds field entries none
  | last {before after : List (String × Json)} {key : String} {value : Json}
      (split : entries = before ++ (key, value) :: after)
      (spelled : field.spelledBy key)
      (unspelled : ∀ entry ∈ after, ¬ field.spelledBy entry.1) :
      Holds field entries (some value)

theorem Field.holds_merged_iff
    (field : Field) (members : List (String × Json)) (value : Option Json) :
    field.Holds (merged members) value ↔ field.value? members = value := by
  rw [value?, List.findRev?_eq_find?_reverse]
  constructor
  · intro hholds
    cases hholds with
    | absent unspelled =>
        rw [Option.map_eq_none_iff, List.find?_eq_none]
        intro entry hentry
        exact unspelled entry (List.mem_reverse.mp hentry)
    | @last before after key value split spelled unspelled =>
        have hafter : after.reverse.find? (fun entry => field.spelledBy entry.1) = none := by
          rw [List.find?_eq_none]
          intro entry hentry
          exact unspelled entry (List.mem_reverse.mp hentry)
        rw [split, List.reverse_append, List.reverse_cons, List.append_assoc, List.find?_append,
          hafter, Option.none_or, List.singleton_append, List.find?_cons, spelled]
        rfl
  · intro hvalue
    cases hfind : (merged members).reverse.find? fun entry => field.spelledBy entry.1 with
    | none =>
        rw [hfind] at hvalue
        rw [List.find?_eq_none] at hfind
        subst hvalue
        refine .absent ?_
        intro entry hentry
        exact hfind entry (List.mem_reverse.mpr hentry)
    | some entry =>
        rw [hfind] at hvalue
        obtain ⟨hspelled, after, before, hsplit, hunspelled⟩ :=
          List.find?_eq_some_iff_append.mp hfind
        subst hvalue
        have hsplit' : merged members = before.reverse ++ (entry.1, entry.2) :: after.reverse := by
          rw [← List.reverse_reverse (merged members), hsplit]
          simp
        refine .last hsplit' hspelled ?_
        intro other hother
        simpa using hunspelled other (List.mem_reverse.mp hother)

/-! ## The fields that an object states -/

/-- The text that the value of an optional text field stands for; absent and null stand for none. -/
inductive OptionalText : Option Json → Option String → Prop where
  | absent : OptionalText none none
  | null : OptionalText (some .null) none
  | string (text : String) : OptionalText (some (.string text)) (some text)

/-- The values that the value of the children stands for; absent and null stand for no children. -/
inductive OptionalItems : Option Json → List Json → Prop where
  | absent : OptionalItems none []
  | null : OptionalItems (some .null) []
  | array (items : List Json) : OptionalItems (some (.array items)) items

/-- The members of an object state the own fields of a node. -/
structure OwnFields.StatedBy (fields : OwnFields) (members : List (String × Json)) : Prop where
  name : Field.name.Holds (Field.merged members) (some (.string fields.name))
  classification :
    Field.classification.Holds (Field.merged members) (some (.string fields.classification))
  type : ∃ value, Field.type.Holds (Field.merged members) value ∧
    OptionalText value fields.declaredType
  children : ∃ value, Field.children.Holds (Field.merged members) value ∧
    OptionalItems value fields.children

theorem textField?_eq_ok_iff
    (field : Field) (members : List (String × Json)) (text : Option String) :
    textField? field members = .ok text ↔ OptionalText (field.value? members) text := by
  rw [textField?]
  generalize field.value? members = value
  constructor
  · intro h
    split at h
    · cases h
      exact .absent
    · cases h
      exact .null
    · cases h
      exact .string _
    · cases h
  · intro h
    cases h <;> rfl

theorem textField_eq_ok_iff
    (field : Field) (members : List (String × Json)) (text : String) :
    textField field members = .ok text ↔ field.value? members = some (.string text) := by
  have hoptional := textField?_eq_ok_iff field members
  rw [textField]
  constructor
  · intro h
    cases hfound : textField? field members with
    | error violation =>
        rw [hfound] at h
        cases h
    | ok found =>
        rw [hfound] at h
        cases found with
        | none => cases h
        | some found =>
            cases h
            have htext := (hoptional (some text)).mp hfound
            generalize field.value? members = value at htext
            cases htext
            rfl
  · intro h
    have hfound : textField? field members = .ok (some text) := by
      rw [hoptional, h]
      exact .string text
    rw [hfound]

theorem childValues_eq_ok_iff (members : List (String × Json)) (items : List Json) :
    childValues members = .ok items ↔ OptionalItems (Field.children.value? members) items := by
  rw [childValues]
  generalize Field.children.value? members = value
  constructor
  · intro h
    split at h
    · cases h
      exact .absent
    · cases h
      exact .null
    · cases h
      exact .array _
    · cases h
  · intro h
    cases h <;> rfl

theorem ownFieldsOfMembers_eq_ok_iff_each (members : List (String × Json)) (fields : OwnFields) :
    ownFieldsOfMembers members = .ok fields ↔
      textField .name members = .ok fields.name ∧
        textField .classification members = .ok fields.classification ∧
        textField? .type members = .ok fields.declaredType ∧
        childValues members = .ok fields.children := by
  obtain ⟨name, classification, declaredType, children⟩ := fields
  rw [ownFieldsOfMembers]
  cases textField .name members with
  | error violation => simp
  | ok foundName =>
      cases textField .classification members with
      | error violation => simp
      | ok foundClassification =>
          cases textField? .type members with
          | error violation => simp
          | ok foundType =>
              cases childValues members with
              | error violation => simp
              | ok foundChildren => simp

theorem ownFieldsOfMembers_eq_ok_iff (members : List (String × Json)) (fields : OwnFields) :
    ownFieldsOfMembers members = .ok fields ↔ fields.StatedBy members := by
  rw [ownFieldsOfMembers_eq_ok_iff_each, textField_eq_ok_iff, textField_eq_ok_iff,
    textField?_eq_ok_iff, childValues_eq_ok_iff]
  constructor
  · rintro ⟨hname, hclassification, htype, hchildren⟩
    exact
      { name := (Field.holds_merged_iff _ _ _).mpr hname
        classification := (Field.holds_merged_iff _ _ _).mpr hclassification
        type := ⟨_, (Field.holds_merged_iff _ _ _).mpr rfl, htype⟩
        children := ⟨_, (Field.holds_merged_iff _ _ _).mpr rfl, hchildren⟩ }
  · rintro ⟨hname, hclassification, ⟨type, htype, htext⟩, ⟨children, hchildren, hitems⟩⟩
    rw [Field.holds_merged_iff] at hname hclassification htype hchildren
    subst htype hchildren
    exact ⟨hname, hclassification, htext, hitems⟩

theorem ownFields_eq_ok_iff (json : Json) (fields : OwnFields) :
    ownFields json = .ok fields ↔
      ∃ members, json = .object members ∧ fields.StatedBy members := by
  cases json with
  | object members => simp [ownFields, ownFieldsOfMembers_eq_ok_iff]
  | _ => simp [ownFields]

/-! ## Well-formed nodes and their mirrors -/

/-- A value is a well-formed node on a level when the level is within the limit, the value is an
object that states the fields of a node, and its children are well-formed nodes one level below. -/
inductive WellFormed (limit : Nat) : Nat → Json → Prop where
  | object {level : Nat} {members : List (String × Json)} {fields : OwnFields}
      (within : level ≤ limit)
      (stated : fields.StatedBy members)
      (children : ∀ item ∈ fields.children, WellFormed limit (level + 1) item) :
      WellFormed limit level (.object members)

/-- A node mirrors a value when it carries the fields that the value states, and its children mirror
the stated children one by one and in their order. -/
inductive Mirrors : Json → Node → Prop where
  | object {members : List (String × Json)} {fields : OwnFields} {children : List Node}
      (stated : fields.StatedBy members)
      (mirrored : List.Forall₂ Mirrors fields.children children) :
      Mirrors (.object members)
        ⟨fields.name, fields.classification, fields.declaredType, children⟩

/-- A document is a type tree when it is an array of well-formed nodes on the first level. -/
def IsTypeTree (limit : Nat) (document : Json) : Prop :=
  ∃ items, document = .array items ∧ ∀ item ∈ items, WellFormed limit 1 item

/-- Roots mirror a document when it is an array whose elements they mirror one by one. -/
def MirroredBy (document : Json) (roots : List Node) : Prop :=
  ∃ items, document = .array items ∧ List.Forall₂ Mirrors items roots

/-- What is read is well-formed and is mirrored by the node it is read as. -/
theorem hereditary_wellFormed (limit : Nat) :
    Hereditary limit
      (fun path json node => WellFormed limit path.length json ∧ Mirrors json node)
      (fun path items nodes =>
        (∀ item ∈ items, WellFormed limit (path.length + 1) item) ∧
          List.Forall₂ Mirrors items nodes) where
  node path json fields children hpath hfields hchildren := by
    obtain ⟨members, rfl, hstated⟩ := (ownFields_eq_ok_iff json fields).mp hfields
    exact ⟨.object hpath hstated hchildren.1, .object hstated hchildren.2⟩
  nil path := ⟨by simp, .nil⟩
  cons path index item items node nodes hnode hnodes := by
    rw [List.length_append, List.length_singleton] at hnode
    exact ⟨List.forall_mem_cons.mpr ⟨hnode.1, hnodes.1⟩, .cons hnode.2 hnodes.2⟩

theorem exists_forall₂_mirrors
    {items : List Json} (h : ∀ item ∈ items, ∃ node, Mirrors item node) :
    ∃ nodes, List.Forall₂ Mirrors items nodes := by
  induction items with
  | nil => exact ⟨[], .nil⟩
  | cons item items ih =>
      obtain ⟨hitem, hitems⟩ := List.forall_mem_cons.mp h
      obtain ⟨node, hnode⟩ := hitem
      obtain ⟨nodes, hnodes⟩ := ih hitems
      exact ⟨node :: nodes, .cons hnode hnodes⟩

/-- Every well-formed value has a mirror. -/
theorem WellFormed.exists_mirrors
    {limit level : Nat} {json : Json} (h : WellFormed limit level json) :
    ∃ node, Mirrors json node := by
  induction h with
  | object within stated children ih =>
      obtain ⟨nodes, hnodes⟩ := exists_forall₂_mirrors ih
      exact ⟨_, .object stated hnodes⟩

mutual

/-- A well-formed value is read as any node that mirrors it. -/
theorem readNode_of_mirrors {limit : Nat} :
    ∀ (node : Node) (path : NodePath) (json : Json),
      WellFormed limit path.length json → Mirrors json node →
        readNode limit path json = .ok node
  | ⟨name, classification, declaredType, children⟩, path, json, hwell, hmirrors => by
    cases hmirrors with
    | @object members fields _ stated mirrored =>
        cases hwell with
        | @object _ _ fields' within stated' hchildren =>
            have hfields := (ownFieldsOfMembers_eq_ok_iff members fields).mpr stated
            have hfields' := (ownFieldsOfMembers_eq_ok_iff members fields').mpr stated'
            rw [hfields, Except.ok.injEq] at hfields'
            subst hfields'
            rw [readNode_eq_ok_iff]
            have hread := readNodes_of_mirrors children path 0 fields.children hchildren mirrored
            exact ⟨within, fields, children, hfields, hread, rfl⟩

theorem readNodes_of_mirrors {limit : Nat} :
    ∀ (nodes : List Node) (path : NodePath) (index : Nat) (items : List Json),
      (∀ item ∈ items, WellFormed limit (path.length + 1) item) →
        List.Forall₂ Mirrors items nodes → readNodes limit path index items = .ok nodes
  | [], path, index, _, _, .nil => readNodes_nil limit path index
  | node :: nodes, path, index, item :: items, hwell, .cons hnode hnodes => by
    obtain ⟨hitem, hitems⟩ := List.forall_mem_cons.mp hwell
    have hlevel : WellFormed limit (path ++ [index]).length item := by
      rw [List.length_append, List.length_singleton]
      exact hitem
    rw [readNodes_cons_eq_ok_iff]
    exact ⟨node, nodes, readNode_of_mirrors node (path ++ [index]) item hlevel hnode,
      readNodes_of_mirrors nodes path (index + 1) items hitems hnodes, rfl⟩

end

/-! ## What is accepted -/

theorem readNodes_eq_ok_iff (limit : Nat) (items : List Json) (roots : List Node) :
    readNodes limit [] 0 items = .ok roots ↔
      (∀ item ∈ items, WellFormed limit 1 item) ∧ List.Forall₂ Mirrors items roots := by
  constructor
  · intro h
    exact (hereditary_wellFormed limit).of_readNodes roots [] 0 items h
  · rintro ⟨hwell, hmirrors⟩
    exact readNodes_of_mirrors roots [] 0 items hwell hmirrors

/-- Of the texts that pass the nesting scan and are JSON for some value, those are accepted whose
value is a type tree, and the roots are the nodes that mirror it. -/
theorem read_eq_ok_iff_isTypeTree
    (source : Source) (limit : Nat) (value : Json)
    (hscan : Json.Nesting.firstExcess? source.text (bracketLimit limit) = none)
    (hvalue : Json.read source.text = .ok (some value)) :
    ((∃ roots, read source limit = .ok roots) ↔ IsTypeTree limit value) ∧
      ∀ roots, read source limit = .ok roots ↔
        IsTypeTree limit value ∧ MirroredBy value roots := by
  have hread : ∀ roots, read source limit = .ok roots ↔
      IsTypeTree limit value ∧ MirroredBy value roots := by
    intro roots
    rw [read_eq_ok_iff]
    constructor
    · rintro ⟨-, items, hitems, hroots⟩
      obtain rfl : value = .array items := by simpa [hvalue] using hitems
      obtain ⟨hwell, hmirrors⟩ := (readNodes_eq_ok_iff limit items roots).mp hroots
      exact ⟨⟨items, rfl, hwell⟩, ⟨items, rfl, hmirrors⟩⟩
    · rintro ⟨⟨items, rfl, hwell⟩, ⟨_, heq, hmirrors⟩⟩
      cases heq
      exact ⟨hscan, items, hvalue, (readNodes_eq_ok_iff limit items roots).mpr ⟨hwell, hmirrors⟩⟩
  refine ⟨⟨?_, ?_⟩, hread⟩
  · rintro ⟨roots, hroots⟩
    exact ((hread roots).mp hroots).1
  · rintro ⟨items, rfl, hwell⟩
    obtain ⟨roots, hroots⟩ := exists_forall₂_mirrors fun item hitem =>
      (hwell item hitem).exists_mirrors
    exact ⟨roots, (hread roots).mpr ⟨⟨items, rfl, hwell⟩, ⟨items, rfl, hroots⟩⟩⟩

/-! ## A document that spells a field in two ways -/

/-- The value of a node whose name is first a truth value, then `a` under another spelling, then `b`
in the place of the truth value, so that `a` counts. -/
def respelledNode : Json :=
  .object [("Name", .boolean true), ("name", .string "a"), ("Name", .string "b"),
    ("CLASSIFICATION", .string "C"), ("Type", .null),
    ("Children", .array [.object [("Name", .string ""), ("Classification", .string "p")]])]

def respelledText : String :=
  "[\x7bName: true name: 'a', 'Name': \"b\", CLASSIFICATION: 'C', Type: null,"
    ++ " Children: [\x7bName: '', Classification: 'p'\x7d,]\x7d]"

set_option maxRecDepth 2000 in
theorem read_respelledText :
    Json.Nesting.firstExcess? respelledText (bracketLimit 2) = none ∧
      Json.read respelledText = .ok (some (.array [respelledNode])) ∧
      (∃ roots, read ⟨"context.json", respelledText⟩ 2 = .ok roots) ∧
      MirroredBy (.array [respelledNode]) [⟨"a", "C", none, [⟨"", "p", none, []⟩]⟩] := by
  have hscan : Json.Nesting.firstExcess? respelledText (bracketLimit 2) = none := by
    decide +kernel
  have hvalue : Json.read respelledText = .ok (some (.array [respelledNode])) := by
    with_unfolding_all rfl
  have hroots : readNodes 2 [] 0 [respelledNode] =
      .ok [⟨"a", "C", none, [⟨"", "p", none, []⟩]⟩] := by
    with_unfolding_all rfl
  obtain ⟨hwell, hmirrors⟩ := (readNodes_eq_ok_iff 2 _ _).mp hroots
  have haccepted := read_eq_ok_iff_isTypeTree ⟨"context.json", respelledText⟩ 2 _ hscan hvalue
  exact ⟨hscan, hvalue, haccepted.1.mpr ⟨_, rfl, hwell⟩, ⟨_, rfl, hmirrors⟩⟩

end TreeGen.TypeTree
