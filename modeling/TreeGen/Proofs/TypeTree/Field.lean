import TreeGen.Proofs.Table
import TreeGen.TypeTree.Field

/-!
# Fields under their canonical spelling

Where every member of an object spells another field, and spells it canonically, nothing is merged
and nothing is overridden.
-/

namespace TreeGen.TypeTree.Field

theorem spelledBy_text (field other : Field) :
    field.spelledBy other.text = decide (other = field) := by
  cases field <;> cases other <;> decide

theorem text_inj {field other : Field} (h : field.text = other.text) : field = other := by
  have hspelled := spelledBy_text other field
  rw [h, spelledBy_text, decide_eq_true rfl] at hspelled
  exact of_decide_eq_true hspelled.symm

def member (pair : Field × Json) : String × Json :=
  (pair.1.text, pair.2)

theorem merged_map_member
    {pairs : List (Field × Json)} (h : (pairs.map Prod.fst).Nodup) :
    merged (pairs.map member) = pairs.map member := by
  apply Table.entries_ofList_of_nodup
  have hkeys : Entries.keys (pairs.map member) = (pairs.map Prod.fst).map text := by
    rw [Entries.keys, List.map_map, List.map_map]
    rfl
  rw [hkeys, List.Nodup, List.pairwise_map]
  exact h.imp fun hne heq => hne (text_inj heq)

theorem value?_map_member
    {pairs : List (Field × Json)} (h : (pairs.map Prod.fst).Nodup) (field : Field) :
    field.value? (pairs.map member) =
      (pairs.findRev? fun pair => decide (pair.1 = field)).map Prod.snd := by
  rw [value?, merged_map_member h, List.findRev?_eq_find?_reverse,
    List.findRev?_eq_find?_reverse, ← List.map_reverse, List.find?_map, Option.map_map]
  have hspelled : ((fun other : String × Json => field.spelledBy other.1) ∘ member) =
      fun pair => decide (pair.1 = field) := by
    funext pair
    exact spelledBy_text field pair.1
  rw [hspelled]
  rfl

end TreeGen.TypeTree.Field
