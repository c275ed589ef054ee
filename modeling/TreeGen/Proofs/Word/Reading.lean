import TreeGen.Proofs.TypeTree.LargerLimit
import TreeGen.Proofs.TypeTree.RoundTrip
import TreeGen.Proofs.Word.Scan

/-!
# Reading a type tree with counters of 64 bits

Three numbers are computed while a type tree is read: the limit of the brackets from the limit of
the levels, where the sum stops at the largest number, the counters of the scan, and the level of
each node.  A text nests no more than it has bytes, so none of them shows: the levels never come
near the largest number, and the brackets never come near a limit that was stopped there.
-/

namespace TreeGen

/-! ## A scan that no text exceeds -/

theorem Json.Nesting.excess?_eq_none_of_length_le
    {limit depth : Nat} {bytes : List UInt8} (h : depth + bytes.length ≤ limit) :
    excess? limit depth bytes = none := by
  fun_induction excess? limit depth bytes with
  | case1 depth => rfl
  | case2 depth b rest _ hle ih => exact ih (by rw [List.length_cons] at h; omega)
  | case3 depth b rest _ _ hle ih => exact ih (by rw [List.length_cons] at h; omega)
  | case4 depth b rest _ _ _ hle htail ih => exact ih (by rw [List.length_cons] at h; omega)
  | case5 depth b rest _ _ _ _ hexcess =>
      rw [List.length_cons] at h
      omega
  | case6 depth b rest _ _ _ _ _ ih => exact ih (by rw [List.length_cons] at h; omega)
  | case7 depth b rest _ _ _ _ _ ih => exact ih (by rw [List.length_cons] at h; omega)
  | case8 depth b rest _ _ _ _ _ ih => exact ih (by rw [List.length_cons] at h; omega)

/-- A text has no more brackets than bytes. -/
theorem Json.Nesting.firstExcess?_eq_none_of_size_le
    {text : String} {limit : Nat} (h : text.utf8ByteSize ≤ limit) :
    firstExcess? text limit = none := by
  rw [← Text.length_toUTF8] at h
  rw [firstExcess?, Option.map_eq_none_iff]
  exact excess?_eq_none_of_length_le (by omega)

namespace TypeTree

open Json (nestingItems)

theorem nestingItems_children_lt
    {json : Json} {fields : OwnFields} (h : ownFields json = .ok fields) :
    nestingItems fields.children < json.nesting := by
  obtain ⟨hpos, hnone | hsome⟩ := nestingItems_children_le h
  · rw [hnone, nestingItems]
    omega
  · omega

/-! ## A limit that no text exceeds -/

mutual

/-- A value that nests no further than the limit leaves room for has no node below the limit. -/
theorem unhindered_readNode (limit : Nat) :
    ∀ (path : NodePath) (json : Json), path.length + json.nesting ≤ limit →
      Unhindered (readNode limit path json)
  | path, json, hlimit => by
    have hlevel : path.length ≤ limit := by omega
    cases hfields : ownFields json with
    | error complaint =>
        rw [readNode_of_complaint hlevel hfields]
        rintro below ⟨⟩
    | ok fields =>
        have := sizeOf_children_lt hfields
        have hchildren := nestingItems_children_lt hfields
        have hbelow := unhindered_readNodes limit path 0 fields.children (by omega)
        rw [readNode_of_fields hlevel hfields]
        intro below hdeep
        cases hread : readNodes limit path 0 fields.children with
        | error fault =>
            rw [hread] at hdeep
            cases hdeep
            exact hbelow below hread
        | ok children =>
            rw [hread] at hdeep
            cases hdeep
termination_by _ json => sizeOf json

theorem unhindered_readNodes (limit : Nat) :
    ∀ (path : NodePath) (index : Nat) (items : List Json),
      path.length + 1 + nestingItems items ≤ limit →
        Unhindered (readNodes limit path index items)
  | path, index, [], _ => by
    rw [readNodes_nil]
    rintro below ⟨⟩
  | path, index, item :: items, hlimit => by
    rw [nestingItems] at hlimit
    have hlength : (path ++ [index]).length = path.length + 1 := List.length_append
    have hfirst := unhindered_readNode limit (path ++ [index]) item (by omega)
    have hothers := unhindered_readNodes limit path (index + 1) items (by omega)
    rw [readNodes]
    intro below hdeep
    cases hnode : readNode limit (path ++ [index]) item with
    | error fault =>
        rw [hnode] at hdeep
        cases hdeep
        exact hfirst below hnode
    | ok node =>
        cases hread : readNodes limit path (index + 1) items with
        | error fault =>
            rw [hnode, hread] at hdeep
            cases hdeep
            exact hothers below hread
        | ok nodes =>
            rw [hnode, hread] at hdeep
            cases hdeep
termination_by _ _ items => sizeOf items

end

theorem unhindered_readDocument {limit : Nat} {document : Json} (h : document.nesting ≤ limit) :
    Unhindered (readDocument limit document) := by
  cases document with
  | array items =>
      rw [Json.nesting] at h
      exact unhindered_readNodes limit [] 0 items (by rw [List.length_nil]; omega)
  | _ => rintro path ⟨⟩

/-- A text within the limits of the largest number is never too deep under that limit. -/
theorem read_largestLimit_ne_tooDeep
    {source : Source} (hsize : source.text.utf8ByteSize ≤ largestLimit)
    (location : String) (bound : Nat) (span : Option Text.Span) :
    read source largestLimit ≠ .error (.tooDeep location bound span) := by
  have hcap : bracketLimit largestLimit = largestLimit := rfl
  have hscan : Json.Nesting.firstExcess? source.text (bracketLimit largestLimit) = none :=
    Json.Nesting.firstExcess?_eq_none_of_size_le (hcap ▸ hsize)
  intro hread
  generalize herror : InputError.tooDeep location bound span = error at hread
  cases refuses_of_read_eq_error hread with
  | brackets hexcess =>
      rw [hscan] at hexcess
      cases hexcess
  | malformed => cases herror
  | empty => cases herror
  | @document document fault _ hvalue hfault =>
      have hnesting := Json.nesting_le_utf8ByteSize hvalue
      cases fault with
      | broken path complaint => cases herror
      | tooDeep path =>
          exact unhindered_readDocument (Nat.le_trans hnesting hsize) path hfault

/-! ## Three numbers left open -/

/-- Reading a type tree, when it is left open how the brackets are scanned and how the nodes are
read.  Both may give nothing, and then the reading gives nothing. -/
def readWith {m : Type → Type} [Monad m]
    (source : Source) (limit : Nat)
    (scan : m (Option Nat)) (readDocument : Json → m (Except Fault (List Node))) :
    m (Except InputError (List Node)) := do
  match ← scan with
  | some offset =>
    return .error (.tooDeep ("offset " ++ toString offset) limit (some ⟨offset, 1⟩))
  | none =>
    match Json.read source.text with
    | .error fault => return .error (.malformed (fault.message source.text.toList))
    | .ok none => return .error (.emptyInput source.filename)
    | .ok (some .null) => return .error (.emptyInput source.filename)
    | .ok (some document) =>
      return (← readDocument document).mapError (Fault.toInputError source.text limit)

def readUnbounded (source : Source) (limit : Nat) : Except InputError (List Node) :=
  Id.run (readWith source limit (pure (Json.Nesting.firstExcess? source.text (2 * limit + 16)))
    fun document => pure (readDocument limit document))

theorem read_eq_readWith (source : Source) (limit : Nat) :
    read source limit =
      Id.run (readWith source limit
        (pure (Json.Nesting.firstExcess? source.text (bracketLimit limit)))
        fun document => pure (readDocument limit document)) := by
  cases hscan : Json.Nesting.firstExcess? source.text (bracketLimit limit) with
  | some offset =>
      rw [read, hscan]
      rfl
  | none =>
      rcases hvalue : Json.read source.text with fault | _ | document
      · simp only [read, readWith, hscan, hvalue]
        rfl
      · simp only [read, readWith, hscan, hvalue]
        rfl
      · cases document with
        | null =>
            simp only [read, readWith, hscan, hvalue]
            rfl
        | _ =>
            simp only [read, readWith, hscan, hvalue, pure_bind]
            cases readDocument limit _ <;> rfl

/-- Stopping the sum at the largest number makes no difference. -/
theorem read_eq_readUnbounded
    {source : Source} (hsize : source.text.utf8ByteSize ≤ largestLimit) (limit : Nat) :
    read source limit = readUnbounded source limit := by
  have hscan : Json.Nesting.firstExcess? source.text (bracketLimit limit) =
      Json.Nesting.firstExcess? source.text (2 * limit + 16) := by
    rcases Nat.le_total (2 * limit + 16) largestLimit with hle | hle
    · rw [bracketLimit, Nat.min_eq_left hle]
    · rw [bracketLimit, Nat.min_eq_right hle,
        Json.Nesting.firstExcess?_eq_none_of_size_le hsize,
        Json.Nesting.firstExcess?_eq_none_of_size_le (Nat.le_trans hsize hle)]
  rw [read_eq_readWith, hscan, readUnbounded]

theorem readWith_eq_some
    {source : Source} {limit : Nat} {scan : Option (Option Nat)}
    {readDocument : Json → Option (Except Fault (List Node))} {found : Option Nat}
    {outcome : Json → Except Fault (List Node)}
    (hscan : scan = some found)
    (hdocument : ∀ document, Json.read source.text = .ok (some document) →
      readDocument document = some (outcome document)) :
    readWith source limit scan readDocument =
      some (Id.run
        (readWith source limit (pure found) fun document => pure (outcome document))) := by
  subst hscan
  cases found with
  | some offset => rfl
  | none =>
      rcases hvalue : Json.read source.text with fault | _ | document
      · simp only [readWith, hvalue]
        rfl
      · simp only [readWith, hvalue]
        rfl
      · cases document with
        | null =>
            simp only [readWith, hvalue]
            rfl
        | _ =>
            simp only [readWith, hvalue, hdocument _ hvalue, pure_bind]
            rfl

end TypeTree

namespace Word

open Json (nestingItems)
open TypeTree (Fault NodePath ownFields sizeOf_children_lt)

/-! ## Reading in 64 bits -/

def bracketLimit (limit : UInt64) : UInt64 :=
  saturatingAdd (saturatingMul limit 2) 16

mutual

/-- The node that the value at `path` denotes, on a level that is counted along the way. -/
def readNode (limit level : UInt64) (path : NodePath) (json : Json) : Option (Except Fault Node) :=
  if level > limit then some (.error (.tooDeep path))
  else
    match h : ownFields json with
    | .error complaint => some (.error (.broken path complaint))
    | .ok fields =>
      have := sizeOf_children_lt h
      do
        match ← readNodes limit level path 0 fields.children with
        | .error fault => return .error fault
        | .ok children =>
          return .ok ⟨fields.name, fields.classification, fields.declaredType, children⟩
termination_by sizeOf json

def readNodes (limit level : UInt64) (path : NodePath) (index : Nat) :
    List Json → Option (Except Fault (List Node))
  | [] => some (.ok [])
  | item :: items => do
    match ← readNode limit (← next? level) (path ++ [index]) item with
    | .error fault => return .error fault
    | .ok node =>
      match ← readNodes limit level path (index + 1) items with
      | .error fault => return .error fault
      | .ok nodes => return .ok (node :: nodes)
termination_by items => sizeOf items

end

def readDocument (limit : UInt64) : Json → Option (Except Fault (List Node))
  | .array items => readNodes limit 0 [] 0 items
  | other => some (.error (.broken [] ⟨.notArray other.kind, none⟩))

def read (source : Source) (limit : UInt64) : Option (Except InputError (List Node)) :=
  TypeTree.readWith source limit.toNat
    ((firstExcess? source.text (bracketLimit limit)).map fun found => found.map UInt64.toNat)
    (readDocument limit)

/-! ## No counter overflows -/

theorem toNat_bracketLimit (limit : UInt64) :
    (bracketLimit limit).toNat = TypeTree.bracketLimit limit.toNat := by
  rw [bracketLimit, toNat_saturatingAdd, toNat_saturatingMul, TypeTree.bracketLimit]
  have htwo : (2 : UInt64).toNat = 2 := rfl
  have hsixteen : (16 : UInt64).toNat = 16 := rfl
  rw [htwo, hsixteen]
  omega

mutual

/-- The level is the length of the path, and a path is no longer than the nesting around it. -/
theorem readNode_eq (limit level : UInt64) :
    ∀ (path : NodePath) (json : Json), level.toNat = path.length →
      path.length + json.nesting < largestLimit →
        readNode limit level path json = some (TypeTree.readNode limit.toNat path json)
  | path, json, hlevel, hroom => by
    rw [readNode]
    by_cases hdeep : level > limit
    · have hlimit : path.length > limit.toNat := hlevel ▸ UInt64.lt_iff_toNat_lt.mp hdeep
      rw [if_pos hdeep, TypeTree.readNode_of_lt hlimit]
    · have hlimit : path.length ≤ limit.toNat :=
        hlevel ▸ UInt64.le_iff_toNat_le.mp (UInt64.not_lt.mp hdeep)
      rw [if_neg hdeep]
      split
      · rename_i complaint hfields
        rw [TypeTree.readNode_of_complaint hlimit hfields]
      · rename_i fields hfields
        have := sizeOf_children_lt hfields
        have hchildren := TypeTree.nestingItems_children_lt hfields
        have hread := readNodes_eq limit level path 0 fields.children hlevel (by omega)
        rw [TypeTree.readNode_of_fields hlimit hfields, hread]
        cases TypeTree.readNodes limit.toNat path 0 fields.children <;> rfl
termination_by _ json => sizeOf json

theorem readNodes_eq (limit level : UInt64) :
    ∀ (path : NodePath) (index : Nat) (items : List Json), level.toNat = path.length →
      path.length + 1 + nestingItems items < largestLimit →
        readNodes limit level path index items =
          some (TypeTree.readNodes limit.toNat path index items)
  | path, index, [], _, _ => by
    rw [readNodes, TypeTree.readNodes_nil]
  | path, index, item :: items, hlevel, hroom => by
    rw [nestingItems] at hroom
    have hlength : (path ++ [index]).length = path.length + 1 := List.length_append
    obtain ⟨next, hnext⟩ := exists_next? level (by omega)
    have hvalue := next.property
    have hnode := readNode_eq limit next (path ++ [index]) item (by omega) (by omega)
    have hothers := readNodes_eq limit level path (index + 1) items hlevel (by omega)
    rw [readNodes, TypeTree.readNodes, hnext, Option.bind_eq_bind, Option.bind_some, hnode, hothers]
    cases TypeTree.readNode limit.toNat (path ++ [index]) item with
    | error fault => rfl
    | ok node => cases TypeTree.readNodes limit.toNat path (index + 1) items <;> rfl
termination_by _ _ items => sizeOf items

end

theorem readDocument_eq
    (limit : UInt64) {document : Json} (h : document.nesting < largestLimit) :
    readDocument limit document = some (TypeTree.readDocument limit.toNat document) := by
  cases document with
  | array items =>
      rw [Json.nesting] at h
      exact readNodes_eq limit 0 [] 0 items rfl (by rw [List.length_nil]; omega)
  | _ => rfl

/-- A text of fewer than half as many bytes as there are numbers is read as it is without bounds. -/
theorem read_eq
    {source : Source} (hsize : source.text.utf8ByteSize < 2 ^ 63) (limit : UInt64) :
    read source limit = some (TypeTree.read source limit.toNat) := by
  obtain ⟨found, hfound, hvalue⟩ := firstExcess?_finds hsize (bracketLimit limit)
  have hdocument : ∀ document, Json.read source.text = .ok (some document) →
      readDocument limit document = some (TypeTree.readDocument limit.toNat document) := by
    intro document hread
    have hnesting := Json.nesting_le_utf8ByteSize hread
    apply readDocument_eq
    rw [largestLimit]
    omega
  rw [read, hfound, Option.map_some, hvalue, toNat_bracketLimit,
    TypeTree.readWith_eq_some rfl hdocument, ← TypeTree.read_eq_readWith]

end Word

end TreeGen
