import TreeGen.Proofs.Table
import TreeGen.Proofs.TypeTree.Acceptance
import TreeGen.Proofs.TypeTree.Places

/-!
# Which spelling of a field counts

An object may spell a field in several ways and each of them several times.  Equal keys are merged
before the spellings are compared, and a merged key stays where it is first written.  So it is not
the last member that counts but the spelling that is last to be written for the first time, with the
value that this spelling is given last.

The two differ only where the last member that spells a field goes back to an earlier spelling.
-/

namespace TreeGen.TypeTree

namespace Field

/-! ## Spellings in the order of their first members -/

/-- The spellings of a field in the order in which they are first written. -/
def spellings (field : Field) (members : List (String × Json)) : List String :=
  (Entries.keys members).eraseDups.filter field.spelledBy

/-- The value that counts for a field, said of the members as they are written: that of the last
member with the spelling that is last to be first written. -/
inductive Counts (field : Field) (members : List (String × Json)) : Option Json → Prop where
  | absent (unspelled : ∀ member ∈ members, ¬ field.spelledBy member.1) :
      Counts field members none
  | latest {before after : List (String × Json)} {spelling : String} {value : Json}
      (latest : (field.spellings members).getLast? = some spelling)
      (split : members = before ++ (spelling, value) :: after)
      (last : spelling ∉ Entries.keys after) :
      Counts field members (some value)

/-- The last member that spells the field does so in a way that is not the last to be first
written. -/
def Reverts (field : Field) (members : List (String × Json)) : Prop :=
  ∃ before key value after, members = before ++ (key, value) :: after ∧ field.spelledBy key ∧
    (∀ member ∈ after, ¬ field.spelledBy member.1) ∧
    (field.spellings members).getLast? ≠ some key

theorem keys_merged (members : List (String × Json)) :
    Entries.keys (merged members) = (Entries.keys members).eraseDups :=
  Table.keys_ofList members

/-- The last of the merged entries that spells the field is the latest spelling. -/
theorem getLast?_spellings (field : Field) (members : List (String × Json)) :
    (field.spellings members).getLast? =
      ((merged members).findRev? fun entry => field.spelledBy entry.1).map Prod.fst := by
  rw [spellings, ← keys_merged, List.getLast?_filter, Entries.keys, ← List.map_reverse,
    List.find?_map, List.findRev?_eq_find?_reverse]
  rfl

theorem counts_value? (field : Field) (members : List (String × Json)) :
    field.Counts members (field.value? members) := by
  have hlatest := getLast?_spellings field members
  rw [value?]
  cases hfind : (merged members).findRev? fun entry => field.spelledBy entry.1 with
  | none =>
      apply Counts.absent
      intro member hmember hspelled
      have hkey : member.1 ∈ Entries.keys (merged members) := by
        rw [keys_merged, List.mem_eraseDups]
        exact List.mem_map_of_mem hmember
      obtain ⟨entry, hentry, hfirst⟩ := List.mem_map.mp hkey
      rw [List.findRev?_eq_find?_reverse, List.find?_eq_none] at hfind
      apply hfind entry (List.mem_reverse.mpr hentry)
      rw [hfirst]
      exact hspelled
  | some entry =>
      obtain ⟨key, value⟩ := entry
      rw [hfind] at hlatest
      have hentry : (key, value) ∈ (Table.ofList members).entries := by
        rw [List.findRev?_eq_find?_reverse] at hfind
        exact List.mem_reverse.mp (List.mem_of_find?_eq_some hfind)
      rw [← Table.get?_eq_some_iff, Table.get?_ofList] at hentry
      obtain ⟨before, after, hsplit, hafter⟩ := Entries.exists_split_of_value?_reverse hentry
      exact .latest hlatest hsplit hafter

/-! ## The last member -/

theorem exists_holds (field : Field) (entries : List (String × Json)) :
    ∃ value, field.Holds entries value := by
  induction entries with
  | nil => exact ⟨none, .absent (List.forall_mem_nil _)⟩
  | cons entry entries ih =>
      obtain ⟨value, hvalue⟩ := ih
      cases hvalue with
      | @last before after key value split spelled unspelled =>
          have hsplit : entry :: entries = (entry :: before) ++ (key, value) :: after := by
            rw [split, List.cons_append]
          exact ⟨some value, .last hsplit spelled unspelled⟩
      | absent unspelled =>
          by_cases hentry : field.spelledBy entry.1
          · exact ⟨some entry.2, .last (List.nil_append _).symm hentry unspelled⟩
          · exact ⟨none, .absent (List.forall_mem_cons.mpr ⟨hentry, unspelled⟩)⟩

/-- Unless the last member that spells a field goes back to an earlier spelling, it counts. -/
theorem Counts.holds
    {field : Field} {members : List (String × Json)} {value : Option Json}
    (hcounts : field.Counts members value) (hreverts : ¬ field.Reverts members) :
    field.Holds members value := by
  cases hcounts with
  | absent unspelled => exact .absent unspelled
  | @latest before after spelling value latest split last =>
      have hmem : spelling ∈ field.spellings members := List.mem_of_getLast? latest
      have hspelled : field.spelledBy spelling := (List.mem_filter.mp hmem).2
      obtain ⟨held, hheld⟩ := exists_holds field after
      cases hheld with
      | absent unspelled => exact .last split hspelled unspelled
      | @last before' after' key held split' spelled' unspelled' =>
          exfalso
          apply hreverts
          refine ⟨before ++ (spelling, value) :: before', key, held, after', ?_, spelled',
            unspelled', ?_⟩
          · rw [split, split', List.append_assoc, List.cons_append]
          · rw [latest, ne_eq, Option.some.injEq]
            rintro rfl
            apply last
            rw [split', Entries.keys, List.map_append, List.map_cons]
            exact List.mem_append_right _ List.mem_cons_self

theorem not_reverts_of_spellings_eq
    {field : Field} {members : List (String × Json)} {spelling : String}
    (hspellings : field.spellings members = [spelling]) :
    ¬ field.Reverts members := by
  rintro ⟨before, key, value, after, hsplit, hspelled, -, hlatest⟩
  have hkey : key ∈ Entries.keys members := by
    rw [hsplit, Entries.keys, List.map_append, List.map_cons]
    exact List.mem_append_right _ List.mem_cons_self
  have hmem : key ∈ field.spellings members := by
    rw [spellings, List.mem_filter, List.mem_eraseDups]
    exact ⟨hkey, hspelled⟩
  apply hlatest
  rw [hspellings, List.mem_singleton] at hmem
  rw [hspellings, hmem, List.getLast?_singleton]

end Field

/-! ## The nodes of a tree in their places -/

/-- The node to which steps from children to children lead. -/
def nodeBelow? : Node → List Nat → Option Node
  | node, [] => some node
  | node, index :: steps => node.children[index]?.bind fun child => nodeBelow? child steps

def nodeAt? (roots : List Node) : NodePath → Option Node
  | [] => none
  | index :: steps => roots[index]?.bind fun root => nodeBelow? root steps

def Carries (node : Node) : Field → Option Json → Prop
  | .name, value => value = some (.string node.name)
  | .classification, value => value = some (.string node.classification)
  | .type, value => OptionalText value node.declaredType
  | .children, value =>
    ∃ items, OptionalItems value items ∧ List.Forall₂ Mirrors items node.children

theorem exists_getElem?_of_mirrors
    {items : List Json} {nodes : List Node} (h : List.Forall₂ Mirrors items nodes)
    {index : Nat} {item : Json} (hitem : items[index]? = some item) :
    ∃ node, nodes[index]? = some node ∧ Mirrors item node := by
  induction h generalizing index with
  | nil => simp at hitem
  | cons hfirst _ ih =>
      cases index with
      | zero =>
          rw [List.getElem?_cons_zero, Option.some.injEq] at hitem
          subst hitem
          exact ⟨_, List.getElem?_cons_zero, hfirst⟩
      | succ index =>
          rw [List.getElem?_cons_succ] at hitem
          rw [List.getElem?_cons_succ]
          exact ih hitem

/-- Where a node mirrors a value, each value below it is mirrored in its place. -/
theorem Mirrors.exists_nodeBelow?
    {steps : List Nat} {json value : Json} {node : Node} (h : Mirrors json node)
    (hvalue : valueBelow? json steps = some value) :
    ∃ below, nodeBelow? node steps = some below ∧ Mirrors value below := by
  induction steps generalizing json node with
  | nil =>
      rw [valueBelow?, Option.some.injEq] at hvalue
      subst hvalue
      exact ⟨node, rfl, h⟩
  | cons index steps ih =>
      cases h with
      | @object members fields children stated mirrored =>
          have hfields : ownFields (.object members) = .ok fields :=
            (ownFieldsOfMembers_eq_ok_iff members fields).mpr stated
          rw [valueBelow?, ← children_eq_childItems hfields, Option.bind_eq_some_iff] at hvalue
          obtain ⟨child, hchild, hvalue⟩ := hvalue
          obtain ⟨childNode, hnode, hmirrors⟩ := exists_getElem?_of_mirrors mirrored hchild
          obtain ⟨below, hbelow, hmirrored⟩ := ih hmirrors hvalue
          refine ⟨below, ?_, hmirrored⟩
          rw [nodeBelow?, hnode, Option.bind_some]
          exact hbelow

theorem exists_nodeAt?
    {items : List Json} {roots : List Node} (h : List.Forall₂ Mirrors items roots)
    {path : NodePath} {value : Json} (hvalue : valueAt? items path = some value) :
    ∃ node, nodeAt? roots path = some node ∧ Mirrors value node := by
  cases path with
  | nil => cases hvalue
  | cons index steps =>
      rw [valueAt?, Option.bind_eq_some_iff] at hvalue
      obtain ⟨item, hitem, hvalue⟩ := hvalue
      obtain ⟨root, hroot, hmirrors⟩ := exists_getElem?_of_mirrors h hitem
      obtain ⟨below, hbelow, hmirrored⟩ := hmirrors.exists_nodeBelow? hvalue
      refine ⟨below, ?_, hmirrored⟩
      rw [nodeAt?, hroot, Option.bind_some]
      exact hbelow

/-- A node that mirrors an object carries the values that count for its fields. -/
theorem Mirrors.carries
    {value : Json} {node : Node} (h : Mirrors value node) :
    ∃ members, value = .object members ∧
      ∀ field : Field, Carries node field (field.value? members) := by
  cases h with
  | @object members fields children stated mirrored =>
      refine ⟨members, rfl, ?_⟩
      obtain ⟨hname, hclassification, ⟨type, htype, htext⟩, ⟨held, hheld, hitems⟩⟩ := stated
      rw [Field.holds_merged_iff] at hname hclassification htype hheld
      intro field
      cases field with
      | name => exact hname
      | classification => exact hclassification
      | type =>
          rw [htype]
          exact htext
      | children =>
          rw [hheld]
          exact ⟨fields.children, hitems, mirrored⟩

/-! ## What is read -/

/-- In a text that is read, the value that a node carries for a field is that of the last member
with the spelling that is last to be first written.  It is the value of the last member that spells
the field, unless that member goes back to an earlier spelling. -/
theorem read_uses_latest_spelling
    (source : Source) (limit : Nat) (roots : List Node)
    (haccepted : read source limit = .ok roots) :
    ∃ items, Json.read source.text = .ok (some (.array items)) ∧
      ∀ path value, valueAt? items path = some value →
        ∃ members node, value = .object members ∧ nodeAt? roots path = some node ∧
          ∀ field : Field, ∃ held, Carries node field held ∧ field.Counts members held ∧
            (¬ field.Reverts members → field.Holds members held) := by
  obtain ⟨-, items, hitems, hroots⟩ := (read_eq_ok_iff source limit roots).mp haccepted
  have hmirrors := ((readNodes_eq_ok_iff limit items roots).mp hroots).2
  refine ⟨items, hitems, ?_⟩
  intro path value hvalue
  obtain ⟨node, hnode, hmirrored⟩ := exists_nodeAt? hmirrors hvalue
  obtain ⟨members, hmembers, hcarries⟩ := hmirrored.carries
  refine ⟨members, node, hmembers, hnode, ?_⟩
  intro field
  have hcounts := Field.counts_value? field members
  exact ⟨field.value? members, hcarries field, hcounts, hcounts.holds⟩

/-! ## A spelling that is taken up again -/

/-- The members of a node that is named three times, the last time in the spelling of the first. -/
def renamedMembers : List (String × Json) :=
  [("Name", .string "a"), ("name", .string "b"), ("Name", .string "c"),
    ("Classification", .string "C")]

def renamedText : String :=
  "[\x7b\"Name\":\"a\",\"name\":\"b\",\"Name\":\"c\",\"Classification\":\"C\"\x7d]"

set_option maxRecDepth 2000 in
theorem read_renamedText :
    Json.read renamedText = .ok (some (.array [.object renamedMembers])) ∧
      read ⟨"context.json", renamedText⟩ 64 = .ok [⟨"b", "C", none, []⟩] := by
  have hscan : Json.Nesting.firstExcess? renamedText (bracketLimit 64) = none := by
    decide +kernel
  have hvalue : Json.read renamedText = .ok (some (.array [.object renamedMembers])) := by
    with_unfolding_all rfl
  have hroots : readNodes 64 [] 0 [.object renamedMembers] = .ok [⟨"b", "C", none, []⟩] := by
    with_unfolding_all rfl
  refine ⟨hvalue, ?_⟩
  rw [read_eq_ok_iff]
  exact ⟨hscan, _, hvalue, hroots⟩

theorem read_renamedText_uses_latest_spelling :
    read ⟨"context.json", renamedText⟩ 64 = .ok [⟨"b", "C", none, []⟩] ∧
      Field.name.Counts renamedMembers (some (.string "b")) ∧
      ¬ Field.classification.Reverts renamedMembers ∧
      Field.classification.Holds renamedMembers (some (.string "C")) := by
  obtain ⟨hvalue, hread⟩ := read_renamedText
  obtain ⟨items, hitems, hplaces⟩ :=
    read_uses_latest_spelling ⟨"context.json", renamedText⟩ 64 _ hread
  obtain rfl : [.object renamedMembers] = items := by simpa [hvalue] using hitems
  obtain ⟨members, node, hmembers, hnode, hfields⟩ := hplaces [0] (.object renamedMembers) rfl
  cases hmembers
  cases hnode
  obtain ⟨name, hname, hcounts, -⟩ := hfields .name
  obtain ⟨classification, hclassification, -, hholds⟩ := hfields .classification
  cases hname
  cases hclassification
  have hspellings : Field.classification.spellings renamedMembers = ["Classification"] := by
    decide +kernel
  have hreverts := Field.not_reverts_of_spellings_eq hspellings
  exact ⟨hread, hcounts, hreverts, hholds hreverts⟩

theorem read_renamedText_passes_over_last_member :
    Json.read renamedText = .ok (some (.array [.object renamedMembers])) ∧
      read ⟨"context.json", renamedText⟩ 64 = .ok [⟨"b", "C", none, []⟩] ∧
      Field.name.Holds renamedMembers (some (.string "c")) ∧
      ¬ Carries ⟨"b", "C", none, []⟩ .name (some (.string "c")) := by
  obtain ⟨hvalue, hread⟩ := read_renamedText
  have hsplit : renamedMembers =
      [("Name", .string "a"), ("name", .string "b")] ++
        ("Name", .string "c") :: [("Classification", .string "C")] := rfl
  refine ⟨hvalue, hread, .last hsplit (by decide +kernel) ?_, ?_⟩
  · simp only [List.forall_mem_singleton]
    decide +kernel
  · simp [Carries]

end TreeGen.TypeTree
