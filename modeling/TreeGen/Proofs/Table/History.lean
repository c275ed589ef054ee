import Mathlib.Data.Finset.Card
import Mathlib.Data.List.Induction
import Mathlib.Data.List.Nodup
import TreeGen.Proofs.Table

/-!
# Tables as records of a history

A table is the record of the pairs that have been inserted into it.  It lists every key once, where
the history first mentions it, and pairs it with the value that the history gives it last.  Each
insertion preserves this, so it holds after any number of them.
-/

namespace TreeGen

variable {α β : Type} [DecidableEq α]

/-! ## First mentions -/

/-- The members of a list, each of them once, in the order in which the list first mentions them. -/
structure FirstMentions (listed mentions : List α) : Prop where
  mem_iff : ∀ item, item ∈ listed ↔ item ∈ mentions
  once : listed.Nodup
  ordered : listed.Pairwise fun item later => mentions.idxOf item < mentions.idxOf later

namespace FirstMentions

variable {listed mentions : List α} {item : α}

theorem of_nodup (h : mentions.Nodup) : FirstMentions mentions mentions where
  mem_iff _ := Iff.rfl
  once := h
  ordered := by
    rw [List.pairwise_iff_getElem]
    intro i j hi hj hlt
    rw [h.idxOf_getElem i hi, h.idxOf_getElem j hj]
    exact hlt

/-- Mentioning another item moves none of the first mentions. -/
theorem ordered_append (h : FirstMentions listed mentions) (item : α) :
    listed.Pairwise fun first later =>
      (mentions ++ [item]).idxOf first < (mentions ++ [item]).idxOf later := by
  apply h.ordered.imp_of_mem
  intro first later hfirst hlater hlt
  rw [List.idxOf_append_of_mem ((h.mem_iff first).mp hfirst),
    List.idxOf_append_of_mem ((h.mem_iff later).mp hlater)]
  exact hlt

theorem append_of_mem (h : FirstMentions listed mentions) (hitem : item ∈ listed) :
    FirstMentions listed (mentions ++ [item]) where
  mem_iff other := by
    have hmention := (h.mem_iff item).mp hitem
    rw [h.mem_iff, List.mem_append, List.mem_singleton]
    constructor
    · exact .inl
    · rintro (hother | rfl)
      · exact hother
      · exact hmention
  once := h.once
  ordered := h.ordered_append item

theorem append_of_not_mem (h : FirstMentions listed mentions) (hitem : item ∉ listed) :
    FirstMentions (listed ++ [item]) (mentions ++ [item]) where
  mem_iff other := by
    rw [List.mem_append, List.mem_append, h.mem_iff]
  once := by
    rw [← List.concat_eq_append]
    exact h.once.concat hitem
  ordered := by
    have hmention : item ∉ mentions := by
      rw [← h.mem_iff]
      exact hitem
    rw [List.pairwise_append]
    refine ⟨h.ordered_append item, List.pairwise_singleton _ item, ?_⟩
    intro first hfirst later hlater
    rw [List.mem_singleton] at hlater
    subst hlater
    have hfirst := (h.mem_iff first).mp hfirst
    rw [List.idxOf_append_of_mem hfirst, List.idxOf_append_of_notMem hmention]
    have hlt := List.idxOf_lt_length_of_mem hfirst
    omega

theorem eraseDups (mentions : List α) : FirstMentions mentions.eraseDups mentions := by
  induction mentions using List.reverseRecOn with
  | nil => exact of_nodup List.nodup_nil
  | append_singleton mentions item ih =>
      rw [List.eraseDups_append]
      by_cases hitem : item ∈ mentions
      · have hnothing : ([item].removeAll mentions).eraseDups = [] := by
          simp [List.removeAll, hitem]
        rw [hnothing, List.append_nil]
        exact ih.append_of_mem (List.mem_eraseDups.mpr hitem)
      · have hitself : ([item].removeAll mentions).eraseDups = [item] := by
          simp [List.removeAll, hitem, List.eraseDups_cons]
        rw [hitself]
        apply ih.append_of_not_mem
        rw [List.mem_eraseDups]
        exact hitem

end FirstMentions

/-! ## The latest value of a key -/

/-- The last pair with this key in a history of pairs gives it this value. -/
def IsLatest (history : List (α × β)) (key : α) (value : β) : Prop :=
  ∃ before after, history = before ++ (key, value) :: after ∧ key ∉ Entries.keys after

theorem isLatest_iff {history : List (α × β)} {key : α} {value : β} :
    IsLatest history key value ↔ Entries.value? key history.reverse = some value := by
  constructor
  · rintro ⟨before, after, rfl, hafter⟩
    have hnone : Entries.value? key after.reverse = none := by
      rw [Entries.value?_eq_none_iff, Entries.keys_reverse, List.mem_reverse]
      exact hafter
    rw [List.reverse_append, List.reverse_cons, List.append_assoc, Entries.value?_append, hnone,
      Option.none_or, List.singleton_append, Entries.value?, if_pos rfl]
  · exact Entries.exists_split_of_value?_reverse

/-! ## The record -/

/-- A table records the insertions of a history: it lists every key once, in the order in which the
keys were first inserted, and pairs it with the value that was inserted last. -/
structure Table.Records (table : Table α β) (history : List (α × β)) : Prop where
  keys : FirstMentions table.keys (Entries.keys history)
  latest : ∀ key value, (key, value) ∈ table.entries ↔ IsLatest history key value

namespace Table.Records

variable {table : Table α β} {history : List (α × β)}

theorem of_entries (table : Table α β) : Records table table.entries where
  keys := .of_nodup table.nodup_keys
  latest key value := by
    have hdistinct : (Entries.keys table.entries.reverse).Nodup := by
      rw [Entries.keys_reverse, List.nodup_reverse]
      exact table.nodup_keys
    rw [isLatest_iff, Entries.value?_eq_some_iff hdistinct, List.mem_reverse]

theorem insert (h : Records table history) (key : α) (value : β) :
    Records (table.insert key value) (history ++ [(key, value)]) where
  keys := by
    have hkeys : (table.insert key value).keys =
        if key ∈ table.keys then table.keys else table.keys ++ [key] :=
      Entries.keys_put key value table.entries
    rw [hkeys, Entries.keys, List.map_append, List.map_singleton]
    by_cases hkey : key ∈ table.keys
    · rw [if_pos hkey]
      exact h.keys.append_of_mem hkey
    · rw [if_neg hkey]
      exact h.keys.append_of_not_mem hkey
  latest other held := by
    have hlatest := h.latest other held
    rw [← get?_eq_some_iff, isLatest_iff] at hlatest
    rw [← get?_eq_some_iff, get?_insert, isLatest_iff, List.reverse_append, List.reverse_singleton,
      List.singleton_append, Entries.value?]
    by_cases hother : other = key
    · rw [if_pos hother, if_pos hother.symm]
    · rw [if_neg hother, if_neg (Ne.symm hother)]
      exact hlatest

theorem insertMany (h : Records table history) (pairs : List (α × β)) :
    Records (table.insertMany pairs) (history ++ pairs) := by
  induction pairs generalizing table history with
  | nil =>
      rw [List.append_nil]
      exact h
  | cons pair pairs ih =>
      have hrest := ih (h.insert pair.1 pair.2)
      rwa [List.append_assoc, List.singleton_append] at hrest

theorem get?_eq_some_iff (h : Records table history) {key : α} {value : β} :
    table.get? key = some value ↔ IsLatest history key value := by
  rw [Table.get?_eq_some_iff, h.latest]

theorem get?_eq_none_iff (h : Records table history) {key : α} :
    table.get? key = none ↔ key ∉ Entries.keys history := by
  rw [Table.get?_eq_none_iff, h.keys.mem_iff]

theorem size_eq (h : Records table history) :
    table.size = (Entries.keys history).toFinset.card := by
  have hsame : (Entries.keys history).toFinset = table.keys.toFinset := by
    ext key
    rw [List.mem_toFinset, List.mem_toFinset, h.keys.mem_iff]
  rw [hsame, List.toFinset_card_of_nodup h.keys.once]
  exact (List.length_map Prod.fst).symm

end Table.Records

end TreeGen
