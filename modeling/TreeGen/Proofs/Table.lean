import TreeGen.Table

/-!
# The entries of a table

A table that is made of pairs lists every key where it is first mentioned, with the value that it is
given last.  Pairs that repeat no key are listed as they are, and looking a key up finds the pair
that is listed under it.
-/

namespace TreeGen

theorem Entries.keys_reverse {α β : Type} (entries : List (α × β)) :
    keys entries.reverse = (keys entries).reverse :=
  List.map_reverse

variable {α β : Type} [DecidableEq α]

theorem Entries.put_of_not_mem
    {key : α} {entries : List (α × β)} (h : key ∉ keys entries) (value : β) :
    put key value entries = entries ++ [(key, value)] := by
  induction entries with
  | nil => rfl
  | cons entry entries ih =>
      obtain ⟨first, held⟩ := entry
      rw [keys, List.map_cons, List.mem_cons, not_or] at h
      rw [put, if_neg (Ne.symm h.1), ih h.2, List.cons_append]

theorem Entries.value?_put (key other : α) (value : β) (entries : List (α × β)) :
    value? other (put key value entries) =
      if other = key then some value else value? other entries := by
  induction entries with
  | nil =>
      by_cases h : other = key
      · simp [put, value?, h]
      · simp [put, value?, h, Ne.symm h]
  | cons entry entries ih =>
      obtain ⟨first, held⟩ := entry
      by_cases hfirst : first = key
      · subst hfirst
        by_cases h : other = first
        · simp [put, value?, h]
        · simp [put, value?, h, Ne.symm h]
      · rw [put, if_neg hfirst, value?, value?, ih]
        by_cases h : first = other
        · rw [if_pos h, if_pos h, if_neg (h ▸ hfirst)]
        · rw [if_neg h, if_neg h]

/-- A key that is listed keeps its place, and one that is not is listed last. -/
theorem Entries.keys_put (key : α) (value : β) (entries : List (α × β)) :
    keys (put key value entries) =
      if key ∈ keys entries then keys entries else keys entries ++ [key] := by
  by_cases h : key ∈ keys entries
  · rw [if_pos h]
    induction entries with
    | nil => exact absurd h List.not_mem_nil
    | cons entry entries ih =>
        obtain ⟨first, held⟩ := entry
        by_cases hfirst : first = key
        · rw [put, if_pos hfirst, keys, keys, List.map_cons, List.map_cons]
        · have hrest : key ∈ keys entries := by
            rw [keys, List.map_cons, List.mem_cons] at h
            exact h.resolve_left (Ne.symm hfirst)
          have hkeys := ih hrest
          rw [keys, keys] at hkeys
          rw [put, if_neg hfirst, keys, keys, List.map_cons, List.map_cons, hkeys]
  · rw [if_neg h, put_of_not_mem h, keys, keys, List.map_append, List.map_singleton]

theorem Entries.value?_append (key : α) (a b : List (α × β)) :
    value? key (a ++ b) = (value? key a).or (value? key b) := by
  induction a with
  | nil => rfl
  | cons entry a ih =>
      obtain ⟨first, held⟩ := entry
      by_cases h : first = key
      · rw [List.cons_append, value?, value?, if_pos h, if_pos h, Option.some_or]
      · rw [List.cons_append, value?, value?, if_neg h, if_neg h, ih]

theorem Entries.value?_map {γ : Type} (f : α → β → γ) (key : α) (entries : List (α × β)) :
    value? key (entries.map fun entry => (entry.1, f entry.1 entry.2)) =
      (value? key entries).map (f key) := by
  induction entries with
  | nil => rfl
  | cons entry entries ih =>
      obtain ⟨first, held⟩ := entry
      by_cases h : first = key
      · rw [List.map_cons, value?, value?, if_pos h, if_pos h, h, Option.map_some]
      · rw [List.map_cons, value?, value?, if_neg h, if_neg h, ih]

theorem Entries.value?_eq_none_iff {key : α} {entries : List (α × β)} :
    value? key entries = none ↔ key ∉ keys entries := by
  induction entries with
  | nil => simp [value?, keys]
  | cons entry entries ih =>
      obtain ⟨first, held⟩ := entry
      by_cases h : first = key
      · simp [value?, keys, h]
      · rw [value?, if_neg h, ih, keys, keys, List.map_cons, List.mem_cons, not_or]
        exact (and_iff_right (Ne.symm h)).symm

/-- What is found under a key from the back is what the last pair with that key holds. -/
theorem Entries.exists_split_of_value?_reverse
    {key : α} {value : β} {pairs : List (α × β)} (h : value? key pairs.reverse = some value) :
    ∃ before after, pairs = before ++ (key, value) :: after ∧ key ∉ keys after := by
  induction pairs with
  | nil => cases h
  | cons pair pairs ih =>
      obtain ⟨first, held⟩ := pair
      rw [List.reverse_cons, value?_append, Option.or_eq_some_iff] at h
      rcases h with h | ⟨hnone, h⟩
      · obtain ⟨before, after, hsplit, hafter⟩ := ih h
        refine ⟨(first, held) :: before, after, ?_, hafter⟩
        rw [hsplit, List.cons_append]
      · have hafter : key ∉ keys pairs := by
          rw [value?_eq_none_iff, keys_reverse, List.mem_reverse] at hnone
          exact hnone
        by_cases hfirst : first = key
        · rw [value?, if_pos hfirst, Option.some.injEq] at h
          exact ⟨[], pairs, by rw [hfirst, h, List.nil_append], hafter⟩
        · rw [value?, if_neg hfirst] at h
          cases h

theorem Entries.value?_eq_some_iff
    {key : α} {value : β} {entries : List (α × β)} (distinct : (keys entries).Nodup) :
    value? key entries = some value ↔ (key, value) ∈ entries := by
  induction entries with
  | nil => simp [value?]
  | cons entry entries ih =>
      obtain ⟨first, held⟩ := entry
      rw [keys, List.map_cons, List.nodup_cons] at distinct
      by_cases h : first = key
      · subst h
        have hrest : (first, value) ∉ entries := by
          intro hmem
          exact distinct.1 (List.mem_map.mpr ⟨_, hmem, rfl⟩)
        rw [value?, if_pos rfl, List.mem_cons, or_iff_left hrest, Prod.mk.injEq,
          Option.some.injEq, and_iff_right rfl]
        exact eq_comm
      · have hfirst : (key, value) ≠ (first, held) := by
          intro heq
          exact h (Prod.mk.inj heq).1.symm
        rw [value?, if_neg h, ih distinct.2, List.mem_cons, or_iff_right hfirst]

namespace Table

theorem get?_insert (table : Table α β) (key other : α) (value : β) :
    (table.insert key value).get? other = if other = key then some value else table.get? other :=
  Entries.value?_put key other value table.entries

theorem get?_eq_none_iff {table : Table α β} {key : α} :
    table.get? key = none ↔ key ∉ table.keys :=
  Entries.value?_eq_none_iff

theorem contains_iff {table : Table α β} {key : α} : table.contains key ↔ key ∈ table.keys := by
  rw [contains, Option.isSome_iff_ne_none, Ne, get?_eq_none_iff, Decidable.not_not]

theorem get?_eq_some_iff {table : Table α β} {key : α} {value : β} :
    table.get? key = some value ↔ (key, value) ∈ table.entries :=
  Entries.value?_eq_some_iff table.nodup_keys

theorem removeAll_append_singleton (keys listed : List α) (key : α) :
    keys.removeAll (listed ++ [key]) =
      (keys.removeAll listed).filter fun other => !other == key := by
  rw [List.removeAll, List.removeAll, List.filter_filter]
  apply List.filter_congr
  intro other _
  by_cases h : other = key <;> simp [h]

/-- Inserting pairs leaves the keys in their places and adds the new ones in the order in which they
are first mentioned. -/
theorem keys_insertMany (table : Table α β) (pairs : List (α × β)) :
    (table.insertMany pairs).keys =
      table.keys ++ ((Entries.keys pairs).removeAll table.keys).eraseDups := by
  induction pairs generalizing table with
  | nil => simp [insertMany, Entries.keys, List.removeAll]
  | cons pair pairs ih =>
      obtain ⟨key, value⟩ := pair
      have hinsert : (table.insert key value).keys =
          if key ∈ table.keys then table.keys else table.keys ++ [key] :=
        Entries.keys_put key value table.entries
      have hrest : (table.insertMany ((key, value) :: pairs)).keys = _ :=
        ih (table.insert key value)
      rw [hrest, hinsert, Entries.keys, Entries.keys, List.map_cons, List.cons_removeAll]
      by_cases h : key ∈ table.keys
      · rw [if_pos h, if_neg (by simpa using h)]
      · rw [if_neg h, if_pos (by simpa using h), removeAll_append_singleton, List.eraseDups_cons,
          List.append_assoc, List.singleton_append]

/-- Inserting pairs gives a key the value of the last pair that mentions it, if one does. -/
theorem get?_insertMany (table : Table α β) (pairs : List (α × β)) (key : α) :
    (table.insertMany pairs).get? key =
      (Entries.value? key pairs.reverse).or (table.get? key) := by
  induction pairs generalizing table with
  | nil => rfl
  | cons pair pairs ih =>
      obtain ⟨first, value⟩ := pair
      have hrest : (table.insertMany ((first, value) :: pairs)).get? key = _ :=
        ih (table.insert first value)
      rw [hrest, get?_insert, List.reverse_cons, Entries.value?_append, Option.or_assoc,
        Entries.value?, Entries.value?]
      by_cases h : first = key
      · rw [if_pos h, if_pos h.symm, Option.some_or]
      · rw [if_neg h, if_neg (Ne.symm h), Option.none_or]

theorem get?_insertMany_of_not_mem {table : Table α β} {pairs : List (α × β)} {key : α}
    (h : key ∉ Entries.keys pairs) : (table.insertMany pairs).get? key = table.get? key := by
  have hnone : Entries.value? key pairs.reverse = none := by
    rw [Entries.value?_eq_none_iff, Entries.keys_reverse, List.mem_reverse]
    exact h
  rw [get?_insertMany, hnone, Option.none_or]

theorem get?_filterKeys_of_keep {table : Table α β} {keep : α → Bool} {key : α} (h : keep key) :
    (table.filterKeys keep).get? key = table.get? key := by
  apply Option.ext
  intro value
  rw [get?_eq_some_iff, get?_eq_some_iff]
  simp [filterKeys, h]

theorem keys_ofList (pairs : List (α × β)) :
    (ofList pairs).keys = (Entries.keys pairs).eraseDups := by
  have hnone : (Entries.keys pairs).removeAll (empty : Table α β).keys = Entries.keys pairs :=
    List.filter_eq_self.mpr fun _ _ => rfl
  rw [ofList, keys_insertMany, hnone]
  rfl

theorem get?_ofList (pairs : List (α × β)) (key : α) :
    (ofList pairs).get? key = Entries.value? key pairs.reverse := by
  rw [ofList, get?_insertMany, show (empty : Table α β).get? key = none from rfl, Option.or_none]

theorem get?_ofList_map {γ : Type} (f : α → β → γ) (pairs : List (α × β)) (key : α) :
    (ofList (pairs.map fun pair => (pair.1, f pair.1 pair.2))).get? key =
      ((ofList pairs).get? key).map (f key) := by
  rw [get?_ofList, get?_ofList, ← List.map_reverse, Entries.value?_map]

theorem entries_insertMany_of_nodup
    {table : Table α β} {pairs : List (α × β)}
    (h : (Entries.keys (table.entries ++ pairs)).Nodup) :
    (table.insertMany pairs).entries = table.entries ++ pairs := by
  induction pairs generalizing table with
  | nil => exact (List.append_nil _).symm
  | cons pair pairs ih =>
      obtain ⟨key, value⟩ := pair
      have hkeys := h
      rw [Entries.keys, List.map_append, List.nodup_append] at hkeys
      have hkey : key ∉ Entries.keys table.entries := by
        intro hmem
        exact hkeys.2.2 key hmem key List.mem_cons_self rfl
      have hinsert : (table.insert key value).entries = table.entries ++ [(key, value)] :=
        Entries.put_of_not_mem hkey value
      have hrest := @ih (table.insert key value) (by
        rw [hinsert, List.append_assoc]
        exact h)
      rw [hinsert, List.append_assoc] at hrest
      exact hrest

theorem entries_ofList_of_nodup
    {pairs : List (α × β)} (h : (Entries.keys pairs).Nodup) :
    (ofList pairs).entries = pairs :=
  @entries_insertMany_of_nodup _ _ _ empty pairs h

end Table

end TreeGen
