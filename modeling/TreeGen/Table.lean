/-!
# Tables that remember the order of insertion

A table pairs each key with one value and lists its keys in the order in which they were first
inserted.  Inserting a key again replaces its value and leaves its place alone.  The functions on
plain lists of pairs come first; the table itself adds the invariant that no key is listed twice,
so that a table and the finite map it stands for have the same size.
-/

namespace TreeGen

namespace Entries

variable {α β : Type} [DecidableEq α]

/-- Pair `key` with `value`: in its place when the key is listed, at the end otherwise. -/
def put (key : α) (value : β) : List (α × β) → List (α × β)
  | [] => [(key, value)]
  | (k, v) :: rest =>
    if k = key then (k, value) :: rest else (k, v) :: put key value rest

def value? (key : α) : List (α × β) → Option β
  | [] => none
  | (k, v) :: rest => if k = key then some v else value? key rest

def keys (entries : List (α × β)) : List α :=
  entries.map Prod.fst

theorem mem_keys_put (key : α) (value : β) (entries : List (α × β)) (k : α) :
    k ∈ keys (put key value entries) ↔ k = key ∨ k ∈ keys entries := by
  induction entries with
  | nil => simp [put, keys]
  | cons entry rest ih =>
    obtain ⟨k', v'⟩ := entry
    by_cases h : k' = key
    · subst h
      simp [put, keys]
    · simp only [put, h, if_false, keys, List.map_cons, List.mem_cons] at ih ⊢
      rw [ih]
      constructor
      · rintro (h | h | h) <;> simp [h]
      · rintro (h | h | h) <;> simp [h]

theorem mem_of_mem_put
    {key : α} {value : β} {entries : List (α × β)} {entry : α × β}
    (mem : entry ∈ put key value entries) :
    entry = (key, value) ∨ entry ∈ entries := by
  induction entries with
  | nil => simpa [put] using mem
  | cons first rest ih =>
    obtain ⟨k, v⟩ := first
    by_cases h : k = key
    · simp only [put, h, if_true, List.mem_cons] at mem ⊢
      rcases mem with mem | mem
      · exact .inl mem
      · exact .inr (.inr mem)
    · simp only [put, h, if_false, List.mem_cons] at mem ⊢
      rcases mem with mem | mem
      · exact .inr (.inl mem)
      · rcases ih mem with mem | mem
        · exact .inl mem
        · exact .inr (.inr mem)

theorem nodup_keys_put (key : α) (value : β) (entries : List (α × β))
    (distinct : (keys entries).Nodup) :
    (keys (put key value entries)).Nodup := by
  induction entries with
  | nil => simp [put, keys]
  | cons entry rest ih =>
    obtain ⟨k, v⟩ := entry
    simp only [keys, List.map_cons, List.nodup_cons] at distinct
    by_cases h : k = key
    · simp only [put, h, if_true, keys, List.map_cons, List.nodup_cons]
      exact ⟨h ▸ distinct.1, distinct.2⟩
    · simp only [put, h, if_false, keys, List.map_cons, List.nodup_cons]
      refine ⟨?_, ih distinct.2⟩
      intro mem
      rcases (mem_keys_put key value rest k).1 mem with hk | hk
      · exact h hk
      · exact distinct.1 hk

end Entries

/-- Pairs of a key and a value, in the order in which the keys were first inserted. -/
structure Table (α β : Type) where
  /-- The pairs, oldest key first. -/
  entries : List (α × β)
  nodup_keys : (Entries.keys entries).Nodup

namespace Table

variable {α β : Type}

def empty : Table α β :=
  ⟨[], List.nodup_nil⟩

def size (table : Table α β) : Nat :=
  table.entries.length

def isEmpty (table : Table α β) : Bool :=
  table.entries.isEmpty

def keys (table : Table α β) : List α :=
  Entries.keys table.entries

def filterKeys (keep : α → Bool) (table : Table α β) : Table α β :=
  ⟨table.entries.filter (fun entry => keep entry.1),
    List.Nodup.sublist (List.filter_sublist.map Prod.fst) table.nodup_keys⟩

variable [DecidableEq α]

def get? (table : Table α β) (key : α) : Option β :=
  Entries.value? key table.entries

def contains (table : Table α β) (key : α) : Bool :=
  (table.get? key).isSome

def insert (table : Table α β) (key : α) (value : β) : Table α β :=
  ⟨Entries.put key value table.entries,
    Entries.nodup_keys_put key value table.entries table.nodup_keys⟩

def insertMany (table : Table α β) (pairs : List (α × β)) : Table α β :=
  pairs.foldl (fun table pair => table.insert pair.1 pair.2) table

/-- The table of a list of pairs, of which a later pair overrides an earlier one. -/
def ofList (pairs : List (α × β)) : Table α β :=
  empty.insertMany pairs

theorem mem_of_mem_insertMany
    {table : Table α β} {pairs : List (α × β)} {entry : α × β}
    (mem : entry ∈ (table.insertMany pairs).entries) :
    entry ∈ table.entries ∨ entry ∈ pairs := by
  induction pairs generalizing table with
  | nil => exact .inl mem
  | cons pair rest ih =>
    rcases @ih (table.insert pair.1 pair.2) mem with mem | mem
    · rcases Entries.mem_of_mem_put mem with h | mem
      · exact .inr (h ▸ List.mem_cons_self)
      · exact .inl mem
    · exact .inr (List.mem_cons_of_mem _ mem)

theorem mem_of_mem_ofList
    {pairs : List (α × β)} {entry : α × β}
    (mem : entry ∈ (ofList pairs).entries) :
    entry ∈ pairs := by
  rcases mem_of_mem_insertMany mem with mem | mem
  · exact absurd mem List.not_mem_nil
  · exact mem

/-- Whether two tables hold the same pairs, in whatever order. -/
def sameEntries [DecidableEq β] (a b : Table α β) : Bool :=
  a.size == b.size && a.entries.all fun entry => decide (b.get? entry.1 = some entry.2)

end Table

end TreeGen
