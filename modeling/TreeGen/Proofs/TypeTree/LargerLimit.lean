import TreeGen.Proofs.TypeTree.Places
import TreeGen.Proofs.TypeTree.Reading

/-!
# Reading under a larger limit

A larger limit lets more through: more brackets in the scan of the text, more levels in the reading
of the nodes.  It changes nothing else.  The values are visited in the same order under every limit,
so a reading that the limit does not stop, whether it ends with a node or at a broken rule, takes
the same course under every larger one.

The converse fails: a text that is too deep under one limit may turn out to break a rule, to be no
JSON, or to be a tree, once more of it is looked at.
-/

namespace TreeGen

/-! ## The brackets of a text -/

/-- What stays within a limit stays within every larger one. -/
theorem Json.Nesting.excess?_eq_none_of_le
    {limit larger depth : Nat} {bytes : List UInt8} (hle : limit ≤ larger)
    (h : excess? limit depth bytes = none) :
    excess? larger depth bytes = none := by
  fun_induction excess? limit depth bytes with
  | case1 depth =>
      rw [excess?]
  | case2 depth b rest hquote _ ih =>
      rw [excess?, if_pos hquote]
      exact ih h
  | case3 depth b rest hquote hline _ ih =>
      rw [excess?, if_neg hquote, if_pos hline]
      exact ih h
  | case4 depth b rest hquote hline hblock _ _ ih =>
      rw [excess?, if_neg hquote, if_neg hline, if_pos hblock]
      exact ih h
  | case5 =>
      cases h
  | case6 depth b rest hquote hline hblock hopen hwithin ih =>
      have hwithin' : ¬ depth + 1 > larger := by omega
      rw [excess?, if_neg hquote, if_neg hline, if_neg hblock, if_pos hopen, if_neg hwithin']
      exact ih h
  | case7 depth b rest hquote hline hblock hopen hclose ih =>
      rw [excess?, if_neg hquote, if_neg hline, if_neg hblock, if_neg hopen, if_pos hclose]
      exact ih h
  | case8 depth b rest hquote hline hblock hopen hclose ih =>
      rw [excess?, if_neg hquote, if_neg hline, if_neg hblock, if_neg hopen, if_neg hclose]
      exact ih h

theorem Json.Nesting.firstExcess?_eq_none_of_le
    {text : String} {limit larger : Nat} (hle : limit ≤ larger)
    (h : firstExcess? text limit = none) :
    firstExcess? text larger = none := by
  rw [firstExcess?, Option.map_eq_none_iff] at h ⊢
  exact excess?_eq_none_of_le hle h

namespace TypeTree

theorem bracketLimit_le_of_le {limit larger : Nat} (hle : limit ≤ larger) :
    bracketLimit limit ≤ bracketLimit larger := by
  unfold bracketLimit
  omega

/-! ## The levels of the nodes -/

/-- The limit on levels is not what a reading ends at. -/
def Unhindered {α : Type} (result : Except Fault α) : Prop :=
  ∀ path, result ≠ .error (.tooDeep path)

/-- What passes on the faults of one of its parts is hindered where that part is. -/
theorem Unhindered.of_passed_on {α β : Type} {whole : Except Fault α} {part : Except Fault β}
    (h : Unhindered whole) (hpassed : ∀ fault, part = .error fault → whole = .error fault) :
    Unhindered part := by
  intro path hdeep
  exact h path (hpassed _ hdeep)

mutual

/-- A reading that the limit does not hinder has the same result under every larger limit. -/
theorem readNode_eq_of_le {limit larger : Nat} (hle : limit ≤ larger) :
    ∀ (path : NodePath) (json : Json),
      Unhindered (readNode limit path json) →
        readNode larger path json = readNode limit path json
  | path, json, hunhindered => by
    by_cases hlevel : path.length ≤ limit
    · have hlevel' := Nat.le_trans hlevel hle
      cases hfields : ownFields json with
      | error complaint =>
          rw [readNode_of_complaint hlevel hfields, readNode_of_complaint hlevel' hfields]
      | ok fields =>
          have := sizeOf_children_lt hfields
          rw [readNode_of_fields hlevel hfields] at hunhindered
          have hbelow : Unhindered (readNodes limit path 0 fields.children) :=
            hunhindered.of_passed_on fun fault hfault => by rw [hfault]
          have hchildren := readNodes_eq_of_le hle path 0 fields.children hbelow
          rw [readNode_of_fields hlevel hfields, readNode_of_fields hlevel' hfields, hchildren]
    · exact absurd (readNode_of_lt (Nat.lt_of_not_le hlevel)) (hunhindered path)
termination_by _ json => sizeOf json

theorem readNodes_eq_of_le {limit larger : Nat} (hle : limit ≤ larger) :
    ∀ (path : NodePath) (index : Nat) (items : List Json),
      Unhindered (readNodes limit path index items) →
        readNodes larger path index items = readNodes limit path index items
  | path, index, [], _ => by
    rw [readNodes_nil, readNodes_nil]
  | path, index, item :: items, hunhindered => by
    rw [readNodes] at hunhindered
    have hfirst : Unhindered (readNode limit (path ++ [index]) item) :=
      hunhindered.of_passed_on fun fault hfault => by rw [hfault]
    have hitem := readNode_eq_of_le hle (path ++ [index]) item hfirst
    rw [readNodes, readNodes, hitem]
    cases hnode : readNode limit (path ++ [index]) item with
    | error fault => rfl
    | ok node =>
        rw [hnode] at hunhindered
        have hothers : Unhindered (readNodes limit path (index + 1) items) :=
          hunhindered.of_passed_on fun fault hfault => by rw [hfault]
        rw [readNodes_eq_of_le hle path (index + 1) items hothers]
termination_by _ _ items => sizeOf items

end

theorem readDocument_eq_of_le
    {limit larger : Nat} (hle : limit ≤ larger) {document : Json}
    (hunhindered : Unhindered (readDocument limit document)) :
    readDocument larger document = readDocument limit document := by
  cases document with
  | array items => exact readNodes_eq_of_le hle [] 0 items hunhindered
  | _ => rfl

/-! ## The whole text -/

/-- Unless a text is too deep, it is read alike under every larger limit: as the same roots, or with
the same error down to its wording, its place and its label. -/
theorem read_unchanged_by_larger_limit
    (source : Source) (limit larger : Nat) (hle : limit ≤ larger)
    (hnot : ∀ location bound span, read source limit ≠ .error (.tooDeep location bound span)) :
    read source larger = read source limit := by
  cases hscan : Json.Nesting.firstExcess? source.text (bracketLimit limit) with
  | some offset => exact absurd (read_eq_tooDeep_of_excess hscan) (hnot _ _ _)
  | none =>
      have hscan' := Json.Nesting.firstExcess?_eq_none_of_le (bracketLimit_le_of_le hle) hscan
      rcases hvalue : Json.read source.text with fault | _ | document
      · simp only [read, hscan, hscan', hvalue]
      · simp only [read, hscan, hscan', hvalue]
      · by_cases hnull : document = .null
        · subst hnull
          simp only [read, hscan, hscan', hvalue]
        · rw [read_of_document hscan hvalue hnull] at hnot ⊢
          rw [read_of_document hscan' hvalue hnull]
          have hunhindered : Unhindered (readDocument limit document) := by
            intro path hdeep
            rw [hdeep] at hnot
            exact hnot path.text limit none rfl
          rw [readDocument_eq_of_le hle hunhindered]
          cases hread : readDocument limit document with
          | ok roots => rfl
          | error fault =>
              cases fault with
              | broken path complaint => rfl
              | tooDeep path => exact absurd hread (hunhindered path)

/-! ## A broken rule before a deeper node -/

/-- The value of a root whose first child is no object and whose second child has a child. -/
def mixedNode : Json :=
  .object [("Name", .string "a"), ("Classification", .string "C"),
    ("Children", .array [.null, .object [("Children", .array [.object []])]])]

def mixedText : String :=
  "[\x7b'Name':'a','Classification':'C','Children':[null,\x7b'Children':[\x7b\x7d]\x7d]\x7d]"

set_option maxRecDepth 2000 in
theorem read_mixedText_unchanged :
    (∀ location bound span,
      read ⟨"context.json", mixedText⟩ 2 ≠ .error (.tooDeep location bound span)) ∧
      ∀ larger, 2 ≤ larger →
        read ⟨"context.json", mixedText⟩ larger =
          .error (.badNode "[0].Children[0]" "expected an object, found null" none) := by
  have hscan : Json.Nesting.firstExcess? mixedText (bracketLimit 2) = none := by
    decide +kernel
  have hvalue : Json.read mixedText = .ok (some (.array [mixedNode])) := by
    with_unfolding_all rfl
  have hroots : readNodes 2 [] 0 [mixedNode] =
      .error (.broken [0, 0] ⟨.notObject .null, none⟩) := by
    with_unfolding_all rfl
  have hread : read ⟨"context.json", mixedText⟩ 2 =
      .error (.badNode "[0].Children[0]" "expected an object, found null" none) := by
    simp only [read, hscan, hvalue, readDocument, hroots]
    rfl
  have hnot : ∀ location bound span,
      read ⟨"context.json", mixedText⟩ 2 ≠ .error (.tooDeep location bound span) := by
    intro location bound span
    rw [hread]
    intro h
    cases h
  refine ⟨hnot, ?_⟩
  intro larger hle
  rw [read_unchanged_by_larger_limit ⟨"context.json", mixedText⟩ 2 larger hle hnot, hread]

end TypeTree

end TreeGen
