import Mathlib.Data.List.Forall2
import TreeGen.Proofs.TypeTree.Places
import TreeGen.Proofs.TypeTree.Reading
import TreeGen.Proofs.TypeTree.Stated

/-!
# Documents that say the same in other words

Two objects say the same when they state the same values of the same fields, in whatever order and
spelling, and whatever members they have besides.  Documents that say the same from node to node are
read alike, provided that no field is spelled twice in one object: with two spellings the order
would matter.  What is read is the same down to the fault, so two texts for such documents differ at
most in where an error points to.
-/

namespace TreeGen.TypeTree

/-! ## Values that say the same -/

mutual

/-- Two values say the same where a node is to be read: they are the same value, or two objects
that, in whatever order, state the same of the same fields. -/
inductive SameNode : Json → Json → Prop where
  | refl (value : Json) : SameNode value value
  | object {members members' : List (String × Json)} {ordered : List (Field × Json)}
      (order : (Field.stated members).Perm ordered)
      (each : List.Forall₂ SameField ordered (Field.stated members')) :
      SameNode (.object members) (.object members')

/-- Two statements about a field say the same: they are the same statement, or both give children
that say the same one by one. -/
inductive SameField : Field × Json → Field × Json → Prop where
  | refl (statement : Field × Json) : SameField statement statement
  | children {items items' : List Json} (each : List.Forall₂ SameNode items items') :
      SameField (.children, .array items) (.children, .array items')

end

theorem forall₂_sameNode_refl (items : List Json) : List.Forall₂ SameNode items items :=
  List.forall₂_same.mpr fun item _ => .refl item

theorem SameField.field_eq {statement statement' : Field × Json}
    (h : SameField statement statement') : statement'.1 = statement.1 := by
  cases h <;> rfl

theorem keys_eq_of_forall₂_sameField
    {statements statements' : List (Field × Json)}
    (h : List.Forall₂ SameField statements statements') :
    Entries.keys statements' = Entries.keys statements := by
  induction h with
  | nil => rfl
  | cons hfirst _ ih =>
      rw [Entries.keys, Entries.keys] at ih
      rw [Entries.keys, Entries.keys, List.map_cons, List.map_cons, hfirst.field_eq, ih]

theorem exists_sameField_of_mem
    {statements statements' : List (Field × Json)} {field : Field} {value : Json}
    (h : List.Forall₂ SameField statements statements') (hmem : (field, value) ∈ statements) :
    ∃ value', (field, value') ∈ statements' ∧ SameField (field, value) (field, value') := by
  induction h with
  | nil => exact absurd hmem List.not_mem_nil
  | @cons first first' rest rest' hfirst _ ih =>
      rcases List.mem_cons.mp hmem with rfl | hmem
      · obtain ⟨field', value'⟩ := first'
        obtain rfl : field' = field := hfirst.field_eq
        exact ⟨value', List.mem_cons_self, hfirst⟩
      · obtain ⟨value', hmem', hsame⟩ := ih hmem
        exact ⟨value', List.mem_cons_of_mem _ hmem', hsame⟩

/-- Two objects hold the same for a field when neither holds anything or both hold values that say
the same. -/
inductive SameHeld (field : Field) : Option Json → Option Json → Prop where
  | absent : SameHeld field none none
  | held {value value' : Json} (same : SameField (field, value) (field, value')) :
      SameHeld field (some value) (some value')

section

variable {members members' : List (String × Json)} {ordered : List (Field × Json)}

theorem eachOnce_of_same
    (honce : Field.EachOnce members) (horder : (Field.stated members).Perm ordered)
    (heach : List.Forall₂ SameField ordered (Field.stated members')) :
    Field.EachOnce members' := by
  rw [Field.EachOnce, keys_eq_of_forall₂_sameField heach]
  exact (horder.map Prod.fst).nodup_iff.mp honce

theorem sameHeld_of_same
    (honce : Field.EachOnce members) (horder : (Field.stated members).Perm ordered)
    (heach : List.Forall₂ SameField ordered (Field.stated members')) (field : Field) :
    SameHeld field (field.value? members) (field.value? members') := by
  cases hvalue : field.value? members with
  | none =>
      have hnone : field.value? members' = none := by
        rw [Field.value?_eq_none_iff] at hvalue ⊢
        rw [keys_eq_of_forall₂_sameField heach]
        intro hmem
        exact hvalue ((horder.map Prod.fst).mem_iff.mpr hmem)
      rw [hnone]
      exact .absent
  | some value =>
      have hmem := horder.mem_iff.mp (honce.value?_eq_some_iff.mp hvalue)
      obtain ⟨value', hmem', hsame⟩ := exists_sameField_of_mem heach hmem
      have honce' := eachOnce_of_same honce horder heach
      rw [honce'.value?_eq_some_iff.mpr hmem']
      exact .held hsame

end

/-! ## Their own fields -/

section

variable {members members' : List (String × Json)}
  (hheld : ∀ field : Field, SameHeld field (field.value? members) (field.value? members'))

include hheld

theorem value?_eq_of_sameHeld {field : Field} (hfield : field ≠ .children) :
    field.value? members' = field.value? members := by
  have hsame := hheld field
  generalize field.value? members = value at hsame
  generalize field.value? members' = value' at hsame
  cases hsame with
  | absent => rfl
  | held same =>
      cases same with
      | refl => rfl
      | children each => exact absurd rfl hfield

theorem textField?_eq_of_sameHeld {field : Field} (hfield : field ≠ .children) :
    textField? field members' = textField? field members := by
  rw [textField?, textField?, value?_eq_of_sameHeld hheld hfield]

theorem textField_eq_of_sameHeld {field : Field} (hfield : field ≠ .children) :
    textField field members' = textField field members := by
  rw [textField, textField, textField?_eq_of_sameHeld hheld hfield]

/-- The children are refused alike, or they say the same one by one. -/
theorem childValues_of_sameHeld :
    (∃ violation, childValues members = .error violation ∧
        childValues members' = .error violation) ∨
      ∃ items items', childValues members = .ok items ∧ childValues members' = .ok items' ∧
        List.Forall₂ SameNode items items' := by
  have hsame := hheld .children
  rw [childValues, childValues]
  generalize Field.children.value? members = value at hsame
  generalize Field.children.value? members' = value' at hsame
  cases hsame with
  | absent => exact .inr ⟨[], [], rfl, rfl, .nil⟩
  | @held value _ same =>
      cases same with
      | children each => exact .inr ⟨_, _, rfl, rfl, each⟩
      | refl =>
          cases value with
          | null => exact .inr ⟨[], [], rfl, rfl, .nil⟩
          | array items => exact .inr ⟨items, items, rfl, rfl, forall₂_sameNode_refl items⟩
          | _ => exact .inl ⟨_, rfl, rfl⟩

/-- Reading the own fields ends with the same complaint, or with the same fields but for the wording
of the children. -/
theorem ownFieldsOfMembers_of_sameHeld :
    (∃ complaint, ownFieldsOfMembers members = .error complaint ∧
        ownFieldsOfMembers members' = .error complaint) ∨
      ∃ fields items', ownFieldsOfMembers members = .ok fields ∧
        ownFieldsOfMembers members' = .ok { fields with children := items' } ∧
        List.Forall₂ SameNode fields.children items' := by
  rw [ownFieldsOfMembers, ownFieldsOfMembers, textField_eq_of_sameHeld hheld (by decide),
    textField_eq_of_sameHeld hheld (by decide), textField?_eq_of_sameHeld hheld (by decide)]
  cases textField .name members with
  | error violation => exact .inl ⟨_, rfl, rfl⟩
  | ok name =>
      cases textField .classification members with
      | error violation => exact .inl ⟨_, rfl, rfl⟩
      | ok classification =>
          cases textField? .type members with
          | error violation => exact .inl ⟨_, rfl, rfl⟩
          | ok declaredType =>
              rcases childValues_of_sameHeld hheld with
                ⟨violation, hitems, hitems'⟩ | ⟨items, items', hitems, hitems', heach⟩
              · rw [hitems, hitems']
                exact .inl ⟨_, rfl, rfl⟩
              · rw [hitems, hitems']
                exact .inr ⟨⟨name, classification, declaredType, items⟩, items', rfl, rfl, heach⟩

end

/-- The same of two values of which the first spells no field twice. -/
theorem SameNode.ownFields_cases
    {json json' : Json} (hsame : SameNode json json')
    (honce : ∀ members, json = .object members → Field.EachOnce members) :
    (∃ complaint, ownFields json = .error complaint ∧ ownFields json' = .error complaint) ∨
      ∃ fields items', ownFields json = .ok fields ∧
        ownFields json' = .ok { fields with children := items' } ∧
        List.Forall₂ SameNode fields.children items' := by
  cases hsame with
  | refl =>
      cases ownFields json with
      | error complaint => exact .inl ⟨complaint, rfl, rfl⟩
      | ok fields => exact .inr ⟨fields, fields.children, rfl, rfl, forall₂_sameNode_refl _⟩
  | object order each =>
      have hheld := sameHeld_of_same (honce _ rfl) order each
      exact ownFieldsOfMembers_of_sameHeld hheld

/-! ## Fields that are spelled once -/

/-- No object that is to be a node, at or below a value, spells a field twice. -/
def EachOnceBelow (json : Json) : Prop :=
  ∀ steps members, valueBelow? json steps = some (.object members) → Field.EachOnce members

def EachOnceWithin (items : List Json) : Prop :=
  ∀ path members, valueAt? items path = some (.object members) → Field.EachOnce members

theorem EachOnceWithin.below {items : List Json} (h : EachOnceWithin items) :
    ∀ item ∈ items, EachOnceBelow item := by
  intro item hitem steps members hvalue
  obtain ⟨index, hindex⟩ := exists_index_of_mem hitem
  rw [← hindex] at hvalue
  exact h (index :: steps) members hvalue

theorem EachOnceBelow.children
    {json : Json} {fields : OwnFields} (hfields : ownFields json = .ok fields)
    (h : EachOnceBelow json) :
    ∀ item ∈ fields.children, EachOnceBelow item := by
  intro item hitem steps members hvalue
  obtain ⟨index, hindex⟩ := exists_index_of_mem_children hfields hitem
  rw [← hindex] at hvalue
  exact h (index :: steps) members hvalue

/-! ## Reading -/

mutual

/-- Values that say the same are read as the same node, or refused for the same fault. -/
theorem readNode_eq_of_same (limit : Nat) :
    ∀ (path : NodePath) (json json' : Json), SameNode json json' → EachOnceBelow json →
      readNode limit path json' = readNode limit path json
  | path, json, json', hsame, honce => by
    by_cases hlevel : path.length ≤ limit
    · rcases hsame.ownFields_cases fun members h => honce [] members (congrArg some h) with
        ⟨complaint, hcomplaint, hcomplaint'⟩ | ⟨fields, items', hfields, hfields', heach⟩
      · rw [readNode_of_complaint hlevel hcomplaint, readNode_of_complaint hlevel hcomplaint']
      · have := sizeOf_children_lt hfields
        have hchildren := readNodes_eq_of_same limit path 0 fields.children items' heach
          (honce.children hfields)
        rw [readNode_of_fields hlevel hfields, readNode_of_fields hlevel hfields', hchildren]
    · have hdeep := Nat.lt_of_not_le hlevel
      rw [readNode_of_lt hdeep, readNode_of_lt hdeep]
termination_by _ json => sizeOf json

theorem readNodes_eq_of_same (limit : Nat) :
    ∀ (path : NodePath) (index : Nat) (items items' : List Json),
      List.Forall₂ SameNode items items' → (∀ item ∈ items, EachOnceBelow item) →
        readNodes limit path index items' = readNodes limit path index items
  | _, _, [], [], .nil, _ => rfl
  | path, index, item :: items, item' :: items', .cons hitem hitems, honce => by
    obtain ⟨honceItem, honceItems⟩ := List.forall_mem_cons.mp honce
    have hfirst := readNode_eq_of_same limit (path ++ [index]) item item' hitem honceItem
    have hothers := readNodes_eq_of_same limit path (index + 1) items items' hitems honceItems
    rw [readNodes, readNodes, hfirst, hothers]
termination_by _ _ items => sizeOf items

end

/-- An error without the stretch of the text that it points to. -/
def withoutSpan : InputError → InputError
  | .badNode path message _ => .badNode path message none
  | .tooDeep location limit _ => .tooDeep location limit none
  | .invalid message _ => .invalid message none
  | error => error

/-- The text decides about nothing but the stretch that an error points to. -/
theorem withoutSpan_toInputError (fault : Fault) (text text' : String) (limit : Nat) :
    withoutSpan (fault.toInputError text' limit) = withoutSpan (fault.toInputError text limit) := by
  cases fault <;> rfl

/-- Two arrays that agree up to the order of the members in the node objects, the case of the keys
that spell fields, and the members that spell none, are read alike under every limit, provided that
the first, and so the other, spells no field twice in one node object: as the same roots, or with a
fault of the same kind that names the same path and the same broken rule.  Two texts that denote
them have the same roots, or errors that differ at most in the stretch that they point to. -/
theorem read_ignores_wording
    (limit : Nat) (items items' : List Json)
    (hsame : List.Forall₂ SameNode items items') (honce : EachOnceWithin items) :
    readDocument limit (.array items') = readDocument limit (.array items) ∧
      ∀ source source' : Source,
        Json.Nesting.firstExcess? source.text (bracketLimit limit) = none →
        Json.Nesting.firstExcess? source'.text (bracketLimit limit) = none →
        Json.read source.text = .ok (some (.array items)) →
        Json.read source'.text = .ok (some (.array items')) →
          (read source' limit).mapError withoutSpan = (read source limit).mapError withoutSpan := by
  have hdocument : readDocument limit (.array items') = readDocument limit (.array items) :=
    readNodes_eq_of_same limit [] 0 items items' hsame honce.below
  refine ⟨hdocument, ?_⟩
  intro source source' hscan hscan' hvalue hvalue'
  rw [read_of_document hscan hvalue nofun, read_of_document hscan' hvalue' nofun, hdocument]
  cases readDocument limit (.array items) with
  | ok roots => rfl
  | error fault =>
      simp only [Except.mapError, withoutSpan_toInputError fault source.text source'.text]

/-! ## A node in two wordings -/

theorem EachOnceBelow.of_children
    {json : Json} (hown : ∀ members, json = .object members → Field.EachOnce members)
    (hchildren : ∀ child ∈ childItems json, EachOnceBelow child) :
    EachOnceBelow json := by
  intro steps members hvalue
  cases steps with
  | nil => exact hown members (Option.some.inj hvalue)
  | cons index steps =>
      rw [valueBelow?, Option.bind_eq_some_iff] at hvalue
      obtain ⟨child, hchild, hvalue⟩ := hvalue
      exact hchildren child (List.mem_of_getElem? hchild) steps members hvalue

theorem EachOnceWithin.of_below {items : List Json} (h : ∀ item ∈ items, EachOnceBelow item) :
    EachOnceWithin items := by
  intro path members hvalue
  cases path with
  | nil => cases hvalue
  | cons index steps =>
      rw [valueAt?, Option.bind_eq_some_iff] at hvalue
      obtain ⟨item, hitem, hvalue⟩ := hvalue
      exact h item (List.mem_of_getElem? hitem) steps members hvalue

/-- The members of a node whose only child has no classification. -/
def plainMembers : List (String × Json) :=
  [("Name", .string "a"), ("Classification", .string "C"),
    ("Children", .array [.object [("Name", .string "b"), ("Type", .null)]])]

def rewordedMembers : List (String × Json) :=
  [("CHILDREN", .array [.object [("tYPE", .null), ("Names", .array []), ("nAME", .string "b")]]),
    ("classification", .string "C"), ("name", .string "a")]

def plainText : String :=
  "[\x7bName:'a',Classification:'C',Children:[\x7bName:'b',Type:null\x7d]\x7d]"

def rewordedText : String :=
  "[\x7bCHILDREN:[\x7btYPE:null,Names:[],nAME:\"b\"\x7d],classification:'C',name:'a'\x7d]"

theorem sameNode_rewordedMembers : SameNode (.object plainMembers) (.object rewordedMembers) := by
  have hchild : SameNode
      (.object [("Name", .string "b"), ("Type", .null)])
      (.object [("tYPE", .null), ("Names", .array []), ("nAME", .string "b")]) :=
    .object (List.reverse_perm _).symm (.cons (.refl _) (.cons (.refl _) .nil))
  exact .object (List.reverse_perm _).symm
    (.cons (.children (.cons hchild .nil)) (.cons (.refl _) (.cons (.refl _) .nil)))

theorem eachOnceWithin_plainMembers : EachOnceWithin [.object plainMembers] := by
  have hchildren : childItems (.object plainMembers) =
      [.object [("Name", .string "b"), ("Type", .null)]] := rfl
  have hchild : EachOnceBelow (.object [("Name", .string "b"), ("Type", .null)]) := by
    apply EachOnceBelow.of_children
    · rintro members ⟨⟩
      decide +kernel
    · exact List.forall_mem_nil _
  apply EachOnceWithin.of_below
  rw [List.forall_mem_singleton]
  apply EachOnceBelow.of_children
  · rintro members ⟨⟩
    decide +kernel
  · rw [hchildren, List.forall_mem_singleton]
    exact hchild

theorem read_ignores_wording_of_rewordedText :
    readDocument 64 (.array [.object rewordedMembers]) =
        .error (.broken [0, 0] ⟨.missing .classification, some "b"⟩) ∧
      read ⟨"context.json", rewordedText⟩ 64 =
        .error (.badNode "[0].Children[0]" "missing required field `Classification`"
          (some ⟨37, 3⟩)) ∧
      (read ⟨"context.json", rewordedText⟩ 64).mapError withoutSpan =
        (read ⟨"context.json", plainText⟩ 64).mapError withoutSpan := by
  have hscan : Json.Nesting.firstExcess? plainText (bracketLimit 64) = none := by
    decide +kernel
  have hscan' : Json.Nesting.firstExcess? rewordedText (bracketLimit 64) = none := by
    decide +kernel
  have hvalue : Json.read plainText = .ok (some (.array [.object plainMembers])) := by
    with_unfolding_all rfl
  have hvalue' : Json.read rewordedText = .ok (some (.array [.object rewordedMembers])) := by
    with_unfolding_all rfl
  have hplain : readNodes 64 [] 0 [.object plainMembers] =
      .error (.broken [0, 0] ⟨.missing .classification, some "b"⟩) := by
    with_unfolding_all rfl
  obtain ⟨hdocument, htexts⟩ := read_ignores_wording 64 [.object plainMembers]
    [.object rewordedMembers] (.cons sameNode_rewordedMembers .nil) eachOnceWithin_plainMembers
  have hreworded : readDocument 64 (.array [.object rewordedMembers]) =
      .error (.broken [0, 0] ⟨.missing .classification, some "b"⟩) := by
    rw [hdocument, readDocument, hplain]
  have herror : Fault.toInputError rewordedText 64
        (.broken [0, 0] ⟨.missing .classification, some "b"⟩) =
      .badNode "[0].Children[0]" "missing required field `Classification`" (some ⟨37, 3⟩) := by
    with_unfolding_all rfl
  refine ⟨hreworded, ?_, ?_⟩
  · simp only [read, hscan', hvalue', hreworded, herror]
  · exact htexts ⟨"context.json", plainText⟩ ⟨"context.json", rewordedText⟩ hscan hscan' hvalue
      hvalue'

end TreeGen.TypeTree
