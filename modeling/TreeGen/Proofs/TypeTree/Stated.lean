import Mathlib.Data.List.Nodup
import TreeGen.Proofs.Table
import TreeGen.Proofs.TypeTree.Field

/-!
# What an object states

The order of an object's members, the case of the letters in its keys, and members that spell no
field are a matter of wording.  What is left of an object is the field and the value of every entry
that spells a field.  Where no field is spelled twice, these are all that is read of the object, in
whatever order they stand.
-/

namespace TreeGen.TypeTree.Field

/-! ## The fields that keys spell -/

def ofKey? (key : String) : Option Field :=
  [name, classification, type, children].find? fun field => field.spelledBy key

theorem eq_of_spelledBy
    {field other : Field} {key : String} (h : field.spelledBy key) (h' : other.spelledBy key) :
    other = field := by
  rw [spelledBy, beq_iff_eq] at h h'
  have hspelled : field.spelledBy other.text := by
    rw [spelledBy, ← h', h, beq_iff_eq]
  rwa [spelledBy_text, decide_eq_true_iff] at hspelled

theorem spelledBy_of_ofKey? {key : String} {field : Field} (h : ofKey? key = some field) :
    field.spelledBy key := by
  rw [ofKey?, List.find?_eq_some_iff_append] at h
  exact h.1

theorem ofKey?_eq_some_iff {key : String} {field : Field} :
    ofKey? key = some field ↔ field.spelledBy key := by
  constructor
  · exact spelledBy_of_ofKey?
  · intro h
    have hmem : field ∈ [name, classification, type, children] := by
      cases field <;> decide
    cases hfind : ofKey? key with
    | none => exact absurd h (List.find?_eq_none.mp hfind field hmem)
    | some other => rw [eq_of_spelledBy h (spelledBy_of_ofKey? hfind)]

/-! ## What an object states -/

def statedBy (entries : List (String × Json)) : List (Field × Json) :=
  entries.filterMap fun entry => (ofKey? entry.1).map fun field => (field, entry.2)

/-- What the members of an object state once equal keys are merged. -/
def stated (members : List (String × Json)) : List (Field × Json) :=
  statedBy (merged members)

/-- No field is spelled by two entries of an object. -/
def EachOnce (members : List (String × Json)) : Prop :=
  (Entries.keys (stated members)).Nodup

instance (members : List (String × Json)) : Decidable (EachOnce members) :=
  inferInstanceAs (Decidable (Entries.keys (stated members)).Nodup)

theorem value?_statedBy (field : Field) (entries : List (String × Json)) :
    Entries.value? field (statedBy entries) =
      (entries.find? fun entry => field.spelledBy entry.1).map Prod.snd := by
  induction entries with
  | nil => rfl
  | cons entry entries ih =>
      have hspelled : field.spelledBy entry.1 = decide (ofKey? entry.1 = some field) := by
        rw [Bool.eq_iff_iff, decide_eq_true_iff, ofKey?_eq_some_iff]
      rw [List.find?_cons, hspelled, statedBy, List.filterMap_cons]
      cases ofKey? entry.1 with
      | none => exact ih
      | some other =>
          by_cases hother : other = field
          · simp [Entries.value?, hother]
          · simp only [Option.map_some, Entries.value?, if_neg hother, Option.some.injEq,
              decide_eq_false hother]
            exact ih

/-- The value of a field is what the last statement about it gives. -/
theorem value?_eq_stated (field : Field) (members : List (String × Json)) :
    field.value? members = Entries.value? field (stated members).reverse := by
  rw [value?, List.findRev?_eq_find?_reverse, ← value?_statedBy, stated, statedBy, statedBy,
    List.filterMap_reverse]

section

variable {members : List (String × Json)} {field : Field} {value : Json}

/-- Where no field is spelled twice, a field has the value that is stated for it anywhere. -/
theorem EachOnce.value?_eq_some_iff (h : EachOnce members) :
    field.value? members = some value ↔ (field, value) ∈ stated members := by
  have hdistinct : (Entries.keys (stated members).reverse).Nodup := by
    rw [Entries.keys_reverse, List.nodup_reverse]
    exact h
  rw [value?_eq_stated, Entries.value?_eq_some_iff hdistinct, List.mem_reverse]

theorem value?_eq_none_iff :
    field.value? members = none ↔ field ∉ Entries.keys (stated members) := by
  rw [value?_eq_stated, Entries.value?_eq_none_iff, Entries.keys_reverse, List.mem_reverse]

end

end TreeGen.TypeTree.Field
