import TreeGen.Proofs.Json.Nesting.Peak
import TreeGen.Proofs.TypeTree.Acceptance
import TreeGen.Proofs.TypeTree.Places

/-!
# The limits under which a tree is read

Once a text is read under some limit, two numbers decide about every other one: the levels of its
nodes, and the brackets that are open at once.  Within both bounds the roots are the same; beyond
either of them the text is too deep, and nothing else can be wrong with it.

Two brackets a level take a tree as far as its nodes reach, so only members that are used for no
field can make the brackets the narrower bound, and those only where they nest by more than sixteen
levels.
-/

namespace TreeGen

open Node (height heightAll)

namespace TypeTree

/-! ## Levels -/

mutual

/-- A value that a node mirrors is well-formed wherever there is room for the levels of the node. -/
theorem wellFormed_of_mirrors {limit : Nat} :
    ∀ (node : Node) (level : Nat) (json : Json),
      Mirrors json node → level + node.height ≤ limit + 1 → WellFormed limit level json
  | ⟨name, classification, declaredType, children⟩, level, json, hmirrors, hlevel => by
    rw [height] at hlevel
    cases hmirrors with
    | object stated mirrored =>
        have hwithin : level ≤ limit := by omega
        have hbelow : level + 1 + heightAll children ≤ limit + 1 := by omega
        exact .object hwithin stated
          (wellFormedAll_of_mirrors children (level + 1) _ mirrored hbelow)

theorem wellFormedAll_of_mirrors {limit : Nat} :
    ∀ (nodes : List Node) (level : Nat) (items : List Json),
      List.Forall₂ Mirrors items nodes → level + heightAll nodes ≤ limit + 1 →
        ∀ item ∈ items, WellFormed limit level item
  | [], _, _, .nil, _ => List.forall_mem_nil _
  | node :: nodes, level, item :: items, .cons hnode hnodes, hlevel => by
    rw [heightAll] at hlevel
    rw [List.forall_mem_cons]
    constructor
    · exact wellFormed_of_mirrors node level item hnode (by omega)
    · exact wellFormedAll_of_mirrors nodes level items hnodes (by omega)

end

section

variable {limit : Nat} {items : List Json} {roots : List Node}

/-- A document is read as roots that mirror it exactly where there is room for their levels. -/
theorem readNodes_eq_ok_iff_heightAll_le (hmirrors : List.Forall₂ Mirrors items roots) :
    readNodes limit [] 0 items = .ok roots ↔ heightAll roots ≤ limit := by
  constructor
  · intro h
    exact heightAll_le_of_readNodes h
  · intro h
    have hlevel : 1 + heightAll roots ≤ limit + 1 := by omega
    rw [readNodes_eq_ok_iff]
    exact ⟨wellFormedAll_of_mirrors roots 1 items hmirrors hlevel, hmirrors⟩

theorem eq_of_readNodes
    {roots' : List Node} (hmirrors : List.Forall₂ Mirrors items roots)
    (h : readNodes limit [] 0 items = .ok roots') :
    roots' = roots := by
  have hmirrors' := ((readNodes_eq_ok_iff limit items roots').mp h).2
  have hread := (readNodes_eq_ok_iff_heightAll_le hmirrors).mpr
    (Nat.le_max_left (heightAll roots) (heightAll roots'))
  have hread' := (readNodes_eq_ok_iff_heightAll_le hmirrors').mpr
    (Nat.le_max_right (heightAll roots) (heightAll roots'))
  rw [hread, Except.ok.injEq] at hread'
  exact hread'.symm

/-- A document that is read under some limit has no other fault than to be too deep. -/
theorem readNodes_ok_or_tooDeep
    {accepting : Nat} (haccepted : readNodes accepting [] 0 items = .ok roots) (limit : Nat) :
    (∃ roots', readNodes limit [] 0 items = .ok roots') ∨
      ∃ path, readNodes limit [] 0 items = .error (.tooDeep path) := by
  cases hread : readNodes limit [] 0 items with
  | ok roots' => exact .inl ⟨roots', rfl⟩
  | error fault =>
      right
      obtain ⟨index, steps, value, hvalue, hfault, -⟩ := exists_ownFault?_of_readNodes hread
      have hown := ownFault?_eq_none_of_readNodes haccepted hvalue
      rcases cases_of_ownFault? hfault with ⟨-, rfl⟩ | ⟨-, complaint, hfields, -⟩
      · exact ⟨index :: steps, rfl⟩
      · -- The value would break a rule on its own fields, and it was read.
        exfalso
        by_cases haccepting : (index :: steps).length ≤ accepting
        · rw [ownFault?_of_le haccepting, hfields] at hown
          cases hown
        · rw [ownFault?_of_lt (Nat.lt_of_not_le haccepting)] at hown
          cases hown

end

/-! ## Brackets -/

def IsUsed (members : List (String × Json)) (value : Json) : Prop :=
  ∃ field : Field, field.value? members = some value

def SpareBelow (most : Nat) (json : Json) : Prop :=
  ∀ steps members, valueBelow? json steps = some (.object members) →
    ∀ member ∈ members, IsUsed members member.2 ∨ member.2.nesting ≤ most

/-- In a document, all members of nodes that count for no field, because they are ignored or
overridden, nest at most so deep. -/
def SpareWithin (most : Nat) (items : List Json) : Prop :=
  ∀ path members, valueAt? items path = some (.object members) →
    ∀ member ∈ members, IsUsed members member.2 ∨ member.2.nesting ≤ most

theorem SpareWithin.below
    {most : Nat} {items : List Json} (h : SpareWithin most items) :
    ∀ item ∈ items, SpareBelow most item := by
  intro item hitem steps members hvalue
  obtain ⟨index, hindex⟩ := exists_index_of_mem hitem
  rw [← hindex] at hvalue
  exact h (index :: steps) members hvalue

theorem SpareBelow.children
    {most : Nat} {json : Json} {fields : OwnFields} (hfields : ownFields json = .ok fields)
    (h : SpareBelow most json) :
    ∀ item ∈ fields.children, SpareBelow most item := by
  intro item hitem steps members hvalue
  obtain ⟨index, hindex⟩ := exists_index_of_mem_children hfields hitem
  rw [← hindex] at hvalue
  exact h (index :: steps) members hvalue

theorem nestingMembers_le
    {most : Nat} {members : List (String × Json)}
    (h : ∀ member ∈ members, member.2.nesting ≤ most) :
    Json.nestingMembers members ≤ most := by
  induction members with
  | nil => exact Nat.zero_le most
  | cons member members ih =>
      obtain ⟨hmember, hmembers⟩ := List.forall_mem_cons.mp h
      rw [Json.nestingMembers, Nat.max_le]
      exact ⟨hmember, ih hmembers⟩

/-- The values that count for the fields of a node have no brackets but those of the children. -/
theorem nesting_le_of_isUsed
    {members : List (String × Json)} {fields : OwnFields} {value : Json}
    (hfields : ownFieldsOfMembers members = .ok fields) (hused : IsUsed members value) :
    value.nesting ≤ 1 + Json.nestingItems fields.children := by
  obtain ⟨field, hvalue⟩ := hused
  rw [ownFieldsOfMembers_eq_ok_iff_each, textField_eq_ok_iff, textField_eq_ok_iff,
    textField?_eq_ok_iff, childValues_eq_ok_iff] at hfields
  obtain ⟨hname, hclassification, htype, hchildren⟩ := hfields
  cases field with
  | name =>
      rw [hname, Option.some.injEq] at hvalue
      rw [← hvalue, Json.nesting]
      exact Nat.zero_le _
  | classification =>
      rw [hclassification, Option.some.injEq] at hvalue
      rw [← hvalue, Json.nesting]
      exact Nat.zero_le _
  | type =>
      rw [hvalue] at htype
      generalize fields.declaredType = declaredType at htype
      cases htype <;> exact Nat.zero_le _
  | children =>
      rw [hvalue] at hchildren
      generalize fields.children = items at hchildren ⊢
      cases hchildren with
      | null => exact Nat.zero_le _
      | array =>
          have hnesting : (Json.array items).nesting = 1 + Json.nestingItems items := by
            rw [Json.nesting]
          exact Nat.le_of_eq hnesting

/-- Where spare members nest at most sixteen levels, the brackets of a node are at most two for each
of its levels and fifteen more. -/
theorem hereditary_spare (limit : Nat) :
    Hereditary limit
      (fun _ json node => SpareBelow 16 json → json.nesting ≤ 2 * node.height + 15)
      (fun _ items nodes => (∀ item ∈ items, SpareBelow 16 item) →
        Json.nestingItems items ≤ 2 * heightAll nodes + 15) where
  node path json fields children _ hfields hchildren hspare := by
    have hbelow := hchildren (hspare.children hfields)
    cases json with
    | object members =>
        have hmembers : Json.nestingMembers members ≤ 2 * heightAll children + 16 := by
          apply nestingMembers_le
          intro member hmember
          rcases hspare [] members rfl member hmember with hused | hle
          · have hnesting := nesting_le_of_isUsed hfields hused
            omega
          · omega
        rw [Json.nesting, height]
        omega
    | _ => simp [ownFields] at hfields
  nil path _ := Nat.zero_le _
  cons path index item items node nodes hnode hnodes hspare := by
    obtain ⟨hitem, hitems⟩ := List.forall_mem_cons.mp hspare
    have hfirst := hnode hitem
    have hothers := hnodes hitems
    rw [Json.nestingItems, heightAll]
    omega

/-! ## The threshold -/

section

variable {source : Source} {limit : Nat} {items : List Json} {roots : List Node}

theorem read_eq_tooDeep_of_readNodes
    {path : NodePath}
    (hscan : Json.Nesting.firstExcess? source.text (bracketLimit limit) = none)
    (hitems : Json.read source.text = .ok (some (.array items)))
    (h : readNodes limit [] 0 items = .error (.tooDeep path)) :
    read source limit = .error (.tooDeep path.text limit none) := by
  simp only [read, hscan, hitems, readDocument, h, Fault.toInputError]

/-- The two bounds on a text that denotes roots. -/
theorem read_eq_ok_iff_of_mirrors
    (hitems : Json.read source.text = .ok (some (.array items)))
    (hmirrors : List.Forall₂ Mirrors items roots) :
    read source limit = .ok roots ↔
      Node.largestDepth roots ≤ limit ∧ Json.mostOpen source.text ≤ bracketLimit limit := by
  rw [read_eq_ok_iff, Json.firstExcess?_eq_none_iff hitems, Node.largestDepth_eq_heightAll,
    ← readNodes_eq_ok_iff_heightAll_le hmirrors]
  constructor
  · rintro ⟨hbrackets, items', hitems', hroots⟩
    obtain rfl : items = items' := by simpa [hitems] using hitems'
    exact ⟨hroots, hbrackets⟩
  · rintro ⟨hroots, hbrackets⟩
    exact ⟨hbrackets, items, hitems, hroots⟩

theorem exists_tooDeep_of_not_ok
    {accepting : Nat} (hitems : Json.read source.text = .ok (some (.array items)))
    (haccepted : readNodes accepting [] 0 items = .ok roots)
    (hnot : read source limit ≠ .ok roots) :
    ∃ location span, read source limit = .error (.tooDeep location limit span) := by
  cases hscan : Json.Nesting.firstExcess? source.text (bracketLimit limit) with
  | some offset => exact ⟨_, _, read_eq_tooDeep_of_excess hscan⟩
  | none =>
      rcases readNodes_ok_or_tooDeep haccepted limit with
        ⟨roots', hroots'⟩ | ⟨path, hdeep⟩
      · have hmirrors := ((readNodes_eq_ok_iff accepting items roots).mp haccepted).2
        rw [eq_of_readNodes hmirrors hroots'] at hroots'
        exact absurd ((read_eq_ok_iff source limit roots).mpr ⟨hscan, items, hitems, hroots'⟩) hnot
      · exact ⟨_, _, read_eq_tooDeep_of_readNodes hscan hitems hdeep⟩

/-- The brackets of a tree whose spare members nest at most sixteen levels. -/
theorem mostOpen_le_of_spareWithin
    {text : String} (hitems : Json.read text = .ok (some (.array items)))
    (hroots : readNodes limit [] 0 items = .ok roots) (hspare : SpareWithin 16 items) :
    Json.mostOpen text ≤ 2 * Node.largestDepth roots + 16 := by
  have hnesting := (hereditary_spare limit).of_readNodes roots [] 0 items hroots hspare.below
  rw [Json.mostOpen_eq_nesting hitems, Json.nesting, Node.largestDepth_eq_heightAll]
  omega

end

/-- A text that is read under some limit is read as the same roots under every limit that is at
least their largest depth and leaves room for the brackets that are open at once; under every other
limit it is too deep.  The brackets make no difference to a tree whose ignored and overridden
members nest at most sixteen levels. -/
theorem read_threshold
    (text : String) (roots : List Node)
    (haccepted : ∃ filename limit, read ⟨filename, text⟩ limit = .ok roots) :
    (∀ filename limit,
      (Node.largestDepth roots ≤ limit ∧ Json.mostOpen text ≤ min (2 * limit + 16) largestLimit →
        read ⟨filename, text⟩ limit = .ok roots) ∧
      (¬ (Node.largestDepth roots ≤ limit ∧
          Json.mostOpen text ≤ min (2 * limit + 16) largestLimit) →
        ∃ location span,
          read ⟨filename, text⟩ limit = .error (.tooDeep location limit span))) ∧
    ∀ items, Json.read text = .ok (some (.array items)) → SpareWithin 16 items →
      ∀ filename limit, Node.largestDepth roots ≤ limit →
        read ⟨filename, text⟩ limit = .ok roots := by
  obtain ⟨filename₀, accepting, haccepted⟩ := haccepted
  obtain ⟨hscan, items, hitems, hroots⟩ := (read_eq_ok_iff _ _ _).mp haccepted
  have hmirrors := ((readNodes_eq_ok_iff accepting items roots).mp hroots).2
  have hread : ∀ filename limit, read ⟨filename, text⟩ limit = .ok roots ↔
      Node.largestDepth roots ≤ limit ∧
        Json.mostOpen text ≤ min (2 * limit + 16) largestLimit := by
    intro filename limit
    exact read_eq_ok_iff_of_mirrors hitems hmirrors
  constructor
  · intro filename limit
    constructor
    · intro hbounds
      exact (hread filename limit).mpr hbounds
    · intro hbounds
      have hnot : read ⟨filename, text⟩ limit ≠ .ok roots := by
        intro hok
        exact hbounds ((hread filename limit).mp hok)
      exact exists_tooDeep_of_not_ok hitems hroots hnot
  · intro items' hitems' hspare filename limit hdepth
    obtain rfl : items = items' := by simpa [hitems] using hitems'
    have hbrackets : Json.mostOpen text ≤ 2 * Node.largestDepth roots + 16 :=
      mostOpen_le_of_spareWithin hitems hroots hspare
    have hcap := ((hread filename₀ accepting).mp haccepted).2
    apply (hread filename limit).mpr
    exact ⟨hdepth, by omega⟩

/-! ## A shallow tree with a deep member -/

/-- A node without children, with a member of no field whose value nests seventeen levels. -/
def bracketedNode : Json :=
  .object [("Name", .string "a"), ("Classification", .string "C"),
    ("Extra", .array [.array [.array [.array [.array [.array [.array [.array [.array [.array
      [.array [.array [.array [.array [.array [.array [.array []]]]]]]]]]]]]]]]])]

def bracketedText : String :=
  "[\x7bName: 'a', Classification: 'C', Extra: [[[[[[[[[[[[[[[[[]]]]]]]]]]]]]]]]]\x7d]"

set_option maxRecDepth 2000 in
theorem read_bracketedText :
    (∃ filename limit, read ⟨filename, bracketedText⟩ limit = .ok [.leaf "a" "C"]) ∧
      (∃ location span,
        read ⟨"context.json", bracketedText⟩ 1 = .error (.tooDeep location 1 span)) ∧
      ∀ limit, 2 ≤ limit → read ⟨"context.json", bracketedText⟩ limit = .ok [.leaf "a" "C"] := by
  have hvalue : Json.read bracketedText = .ok (some (.array [bracketedNode])) := by
    with_unfolding_all rfl
  have hopen : Json.mostOpen bracketedText = 19 := by
    rw [Json.mostOpen_eq_nesting hvalue]
    decide
  have hdepth : Node.largestDepth [.leaf "a" "C"] = 1 := by
    rw [Node.largestDepth_eq_heightAll]
    decide
  have hroots : readNodes 2 [] 0 [bracketedNode] = .ok [.leaf "a" "C"] := by
    with_unfolding_all rfl
  have haccepted : ∃ filename limit,
      read ⟨filename, bracketedText⟩ limit = .ok [.leaf "a" "C"] := by
    refine ⟨"context.json", 2, (read_eq_ok_iff _ _ _).mpr ⟨?_, _, hvalue, hroots⟩⟩
    rw [Json.firstExcess?_eq_none_iff hvalue, hopen]
    decide
  obtain ⟨hbounds, -⟩ := read_threshold _ _ haccepted
  refine ⟨haccepted, (hbounds "context.json" 1).2 ?_, ?_⟩
  · rw [hopen, hdepth]
    decide
  · intro limit hlimit
    apply (hbounds "context.json" limit).1
    rw [hopen, hdepth, largestLimit]
    omega

end TypeTree

end TreeGen
