import TreeGen.Proofs.TypeTree.Nodes

/-!
# The values of a document in their places

A path leads from the elements of a document through the children that count to one value.  The
values are visited in pre-order, which is the lexicographic order of their paths.  What can be wrong
with a value by itself, its own fields and its level, is told apart here from what is wrong further
down: the reader succeeds when no value has a fault of its own, and otherwise it reports the fault
of the first one that has.
-/

namespace TreeGen.TypeTree

/-! ## Places -/

/-- The elements of the array that counts for the children of a value; a value without such an array
has none. -/
def childItems : Json → List Json
  | .object members =>
    match Field.children.value? members with
    | some (.array items) => items
    | _ => []
  | _ => []

/-- The value to which steps from children to children lead. -/
def valueBelow? : Json → List Nat → Option Json
  | json, [] => some json
  | json, index :: steps => (childItems json)[index]?.bind fun child => valueBelow? child steps

def valueAt? (items : List Json) : NodePath → Option Json
  | [] => none
  | index :: steps => items[index]?.bind fun item => valueBelow? item steps

theorem valueAt?_zero_cons (item : Json) (items : List Json) (steps : List Nat) :
    valueAt? (item :: items) (0 :: steps) = valueBelow? item steps := by
  rw [valueAt?, List.getElem?_cons_zero, Option.bind_some]

theorem valueAt?_succ_cons (item : Json) (items : List Json) (index : Nat) (steps : List Nat) :
    valueAt? (item :: items) ((index + 1) :: steps) = valueAt? items (index :: steps) := by
  rw [valueAt?, valueAt?, List.getElem?_cons_succ]

/-- One place is visited before another: it stands above it, or it lies in an earlier one of the
branches in which the two part. -/
def NodePath.Precedes (path other : NodePath) : Prop :=
  List.Lex (· < ·) path other

namespace NodePath

theorem not_precedes_nil (path : NodePath) : ¬ Precedes path [] := by
  intro h
  cases h

theorem precedes_cons_iff {index index' : Nat} {steps steps' : List Nat} :
    Precedes (index :: steps) (index' :: steps') ↔
      index < index' ∨ index = index' ∧ Precedes steps steps' := by
  constructor
  · intro h
    cases h with
    | rel hlt => exact .inl hlt
    | cons hsteps => exact .inr ⟨rfl, hsteps⟩
  · rintro (hlt | ⟨rfl, hsteps⟩)
    · exact .rel hlt
    · exact .cons hsteps

theorem precedes_succ_cons_iff {index index' : Nat} {steps steps' : List Nat} :
    Precedes ((index + 1) :: steps) ((index' + 1) :: steps') ↔
      Precedes (index :: steps) (index' :: steps') := by
  rw [precedes_cons_iff, precedes_cons_iff, Nat.add_lt_add_iff_right, Nat.add_right_cancel_iff]

end NodePath

/-! ## What is wrong with a value by itself -/

/-- The fault that a value has by itself at a place, if any; its children are not looked at. -/
def ownFault? (limit : Nat) (path : NodePath) (value : Json) : Option Fault :=
  if path.length > limit then some (.tooDeep path)
  else
    match ownFields value with
    | .error complaint => some (.broken path complaint)
    | .ok _ => none

theorem ownFault?_of_lt {limit : Nat} {path : NodePath} (h : limit < path.length) (value : Json) :
    ownFault? limit path value = some (.tooDeep path) := by
  rw [ownFault?, if_pos h]

theorem ownFault?_of_le {limit : Nat} {path : NodePath} (h : path.length ≤ limit) (value : Json) :
    ownFault? limit path value =
      match ownFields value with
      | .error complaint => some (.broken path complaint)
      | .ok _ => none := by
  rw [ownFault?, if_neg (Nat.not_lt.mpr h)]

/-- A value's own fault is its level, or what its own fields make wrong. -/
theorem cases_of_ownFault?
    {limit : Nat} {path : NodePath} {value : Json} {fault : Fault}
    (h : ownFault? limit path value = some fault) :
    (limit < path.length ∧ fault = .tooDeep path) ∨
      (path.length ≤ limit ∧ ∃ complaint, ownFields value = .error complaint ∧
        fault = .broken path complaint) := by
  by_cases hpath : path.length ≤ limit
  · rw [ownFault?_of_le hpath] at h
    cases hfields : ownFields value with
    | ok fields =>
        rw [hfields] at h
        cases h
    | error complaint =>
        rw [hfields] at h
        cases h
        exact .inr ⟨hpath, complaint, rfl, rfl⟩
  · have hdeep := Nat.lt_of_not_le hpath
    rw [ownFault?_of_lt hdeep] at h
    cases h
    exact .inl ⟨hdeep, rfl⟩

/-- The children that are read are those that paths lead through. -/
theorem children_eq_childItems
    {json : Json} {fields : OwnFields} (h : ownFields json = .ok fields) :
    fields.children = childItems json := by
  cases json with
  | object members =>
      have hchildren := childValues_of_ownFieldsOfMembers h
      rw [childValues] at hchildren
      rw [childItems]
      split at hchildren <;> simp_all
  | _ => simp [ownFields] at h

/-- An element is at an index of its document, with everything below it. -/
theorem exists_index_of_mem {item : Json} {items : List Json} (h : item ∈ items) :
    ∃ index, ∀ steps, valueAt? items (index :: steps) = valueBelow? item steps := by
  obtain ⟨index, hindex⟩ := List.getElem?_of_mem h
  refine ⟨index, ?_⟩
  intro steps
  rw [valueAt?, hindex, Option.bind_some]

theorem exists_index_of_mem_children
    {json item : Json} {fields : OwnFields} (hfields : ownFields json = .ok fields)
    (h : item ∈ fields.children) :
    ∃ index, ∀ steps, valueBelow? json (index :: steps) = valueBelow? item steps := by
  rw [children_eq_childItems hfields] at h
  obtain ⟨index, hindex⟩ := List.getElem?_of_mem h
  refine ⟨index, ?_⟩
  intro steps
  rw [valueBelow?, hindex, Option.bind_some]

/-! ## Faults at and below a place -/

/-- No value at or below a place has a fault of its own. -/
def Faultless (limit : Nat) (path : NodePath) (json : Json) : Prop :=
  ∀ steps value, valueBelow? json steps = some value → ownFault? limit (path ++ steps) value = none

/-- The fault is the own fault of the first value, at or below a place, that has one. -/
def FirstFault (limit : Nat) (path : NodePath) (json : Json) (fault : Fault) : Prop :=
  ∃ steps value, valueBelow? json steps = some value ∧
    ownFault? limit (path ++ steps) value = some fault ∧
    ∀ earlier other, valueBelow? json earlier = some other → NodePath.Precedes earlier steps →
      ownFault? limit (path ++ earlier) other = none

def FaultlessFrom (limit : Nat) (path : NodePath) (index : Nat) (items : List Json) : Prop :=
  ∀ offset steps value, valueAt? items (offset :: steps) = some value →
    ownFault? limit (path ++ (index + offset) :: steps) value = none

def FirstFaultFrom
    (limit : Nat) (path : NodePath) (index : Nat) (items : List Json) (fault : Fault) : Prop :=
  ∃ offset steps value, valueAt? items (offset :: steps) = some value ∧
    ownFault? limit (path ++ (index + offset) :: steps) value = some fault ∧
    ∀ offset' steps' other, valueAt? items (offset' :: steps') = some other →
      NodePath.Precedes (offset' :: steps') (offset :: steps) →
        ownFault? limit (path ++ (index + offset') :: steps') other = none

section

variable {limit : Nat} {path : NodePath} {index : Nat} {json item : Json} {items : List Json}
  {fault : Fault}

theorem firstFault_of_ownFault? (h : ownFault? limit path json = some fault) :
    FirstFault limit path json fault := by
  refine ⟨[], json, rfl, ?_, ?_⟩
  · rw [List.append_nil]
    exact h
  · intro earlier other _ hprecedes
    exact absurd hprecedes (NodePath.not_precedes_nil earlier)

theorem Faultless.of_children
    (hown : ownFault? limit path json = none)
    (hchildren : FaultlessFrom limit path 0 (childItems json)) :
    Faultless limit path json := by
  intro steps value hvalue
  cases steps with
  | nil =>
      obtain rfl : json = value := Option.some.inj hvalue
      rw [List.append_nil]
      exact hown
  | cons offset steps =>
      have hchild := hchildren offset steps value hvalue
      rwa [Nat.zero_add] at hchild

theorem FirstFault.of_children
    (hown : ownFault? limit path json = none)
    (hchildren : FirstFaultFrom limit path 0 (childItems json) fault) :
    FirstFault limit path json fault := by
  obtain ⟨offset, steps, value, hvalue, hfault, hearlier⟩ := hchildren
  rw [Nat.zero_add] at hfault
  refine ⟨offset :: steps, value, hvalue, hfault, ?_⟩
  intro earlier other hother hprecedes
  cases earlier with
  | nil =>
      obtain rfl : json = other := Option.some.inj hother
      rw [List.append_nil]
      exact hown
  | cons offset' steps' =>
      have hchild := hearlier offset' steps' other hother hprecedes
      rwa [Nat.zero_add] at hchild

theorem faultlessFrom_nil (limit : Nat) (path : NodePath) (index : Nat) :
    FaultlessFrom limit path index [] := by
  intro offset steps value hvalue
  simp [valueAt?] at hvalue

theorem FaultlessFrom.cons
    (hitem : Faultless limit (path ++ [index]) item)
    (hitems : FaultlessFrom limit path (index + 1) items) :
    FaultlessFrom limit path index (item :: items) := by
  intro offset steps value hvalue
  cases offset with
  | zero =>
      rw [valueAt?_zero_cons] at hvalue
      have hown := hitem steps value hvalue
      rwa [List.append_assoc, List.singleton_append] at hown
  | succ offset =>
      rw [valueAt?_succ_cons] at hvalue
      have hown := hitems offset steps value hvalue
      rwa [Nat.add_assoc, Nat.add_comm 1] at hown

theorem FirstFaultFrom.head
    (hitem : FirstFault limit (path ++ [index]) item fault) :
    FirstFaultFrom limit path index (item :: items) fault := by
  obtain ⟨steps, value, hvalue, hfault, hearlier⟩ := hitem
  refine ⟨0, steps, value, ?_, ?_, ?_⟩
  · rw [valueAt?_zero_cons]
    exact hvalue
  · rwa [List.append_assoc, List.singleton_append] at hfault
  · intro offset' steps' other hother hprecedes
    rcases NodePath.precedes_cons_iff.mp hprecedes with hlt | ⟨rfl, hsteps⟩
    · exact absurd hlt (Nat.not_lt_zero offset')
    · rw [valueAt?_zero_cons] at hother
      have hown := hearlier steps' other hother hsteps
      rwa [List.append_assoc, List.singleton_append] at hown

theorem FirstFaultFrom.tail
    (hitem : Faultless limit (path ++ [index]) item)
    (hitems : FirstFaultFrom limit path (index + 1) items fault) :
    FirstFaultFrom limit path index (item :: items) fault := by
  obtain ⟨offset, steps, value, hvalue, hfault, hearlier⟩ := hitems
  refine ⟨offset + 1, steps, value, ?_, ?_, ?_⟩
  · rw [valueAt?_succ_cons]
    exact hvalue
  · rwa [Nat.add_assoc, Nat.add_comm 1] at hfault
  · intro offset' steps' other hother hprecedes
    cases offset' with
    | zero =>
        rw [valueAt?_zero_cons] at hother
        have hown := hitem steps' other hother
        rwa [List.append_assoc, List.singleton_append] at hown
    | succ offset' =>
        rw [valueAt?_succ_cons] at hother
        have hown := hearlier offset' steps' other hother
          (NodePath.precedes_succ_cons_iff.mp hprecedes)
        rwa [Nat.add_assoc, Nat.add_comm 1] at hown

end

/-! ## What the reader makes of them -/

section

variable {limit : Nat} {path : NodePath} {json : Json}

theorem readNode_of_lt (h : limit < path.length) :
    readNode limit path json = .error (.tooDeep path) := by
  rw [readNode, if_pos h]

theorem readNode_of_complaint
    {complaint : Complaint} (h : path.length ≤ limit)
    (hcomplaint : ownFields json = .error complaint) :
    readNode limit path json = .error (.broken path complaint) := by
  rw [readNode, if_neg (Nat.not_lt.mpr h)]
  split
  · rename_i complaint' hcomplaint'
    rw [hcomplaint] at hcomplaint'
    cases hcomplaint'
    rfl
  · rename_i fields hfields
    rw [hcomplaint] at hfields
    cases hfields

theorem readNode_of_fields
    {fields : OwnFields} (h : path.length ≤ limit) (hfields : ownFields json = .ok fields) :
    readNode limit path json =
      match readNodes limit path 0 fields.children with
      | .error fault => .error fault
      | .ok children =>
        .ok ⟨fields.name, fields.classification, fields.declaredType, children⟩ := by
  rw [readNode, if_neg (Nat.not_lt.mpr h)]
  split
  · rename_i complaint hcomplaint
    rw [hfields] at hcomplaint
    cases hcomplaint
  · rename_i fields' hfields'
    rw [hfields] at hfields'
    cases hfields'
    rfl

end

/-- The reader succeeds when no value has a fault of its own, and otherwise reports the first. -/
theorem readNodes_outcome (limit : Nat) (path : NodePath) (index : Nat) (items : List Json) :
    match readNodes limit path index items with
    | .ok _ => FaultlessFrom limit path index items
    | .error fault => FirstFaultFrom limit path index items fault := by
  apply readNodes.induct limit
    (fun path json =>
      match readNode limit path json with
      | .ok _ => Faultless limit path json
      | .error fault => FirstFault limit path json fault)
    (fun path index items =>
      match readNodes limit path index items with
      | .ok _ => FaultlessFrom limit path index items
      | .error fault => FirstFaultFrom limit path index items fault)
  case case1 =>
    intro path json hdeep
    rw [readNode_of_lt hdeep]
    exact firstFault_of_ownFault? (ownFault?_of_lt hdeep json)
  case case2 =>
    intro path json hlevel complaint hcomplaint
    have hown := ownFault?_of_le (Nat.not_lt.mp hlevel) json
    rw [hcomplaint] at hown
    rw [readNode_of_complaint (Nat.not_lt.mp hlevel) hcomplaint]
    exact firstFault_of_ownFault? hown
  case case3 =>
    intro path json hlevel fields hfields _ fault hfault hchildren
    have hown := ownFault?_of_le (Nat.not_lt.mp hlevel) json
    rw [hfields] at hown
    rw [hfault, children_eq_childItems hfields] at hchildren
    rw [readNode_of_fields (Nat.not_lt.mp hlevel) hfields, hfault]
    exact FirstFault.of_children hown hchildren
  case case4 =>
    intro path json hlevel fields hfields _ nodes hnodes hchildren
    have hown := ownFault?_of_le (Nat.not_lt.mp hlevel) json
    rw [hfields] at hown
    rw [hnodes, children_eq_childItems hfields] at hchildren
    rw [readNode_of_fields (Nat.not_lt.mp hlevel) hfields, hnodes]
    exact Faultless.of_children hown hchildren
  case case5 =>
    intro path index
    rw [readNodes_nil]
    exact faultlessFrom_nil limit path index
  case case6 =>
    intro path index item items fault hfault hitem
    rw [hfault] at hitem
    rw [readNodes, hfault]
    exact FirstFaultFrom.head hitem
  case case7 =>
    intro path index item items node hnode fault hfault hitem hitems
    rw [hnode] at hitem
    rw [hfault] at hitems
    rw [readNodes, hnode, hfault]
    exact FirstFaultFrom.tail hitem hitems
  case case8 =>
    intro path index item items node hnode nodes hnodes hitem hitems
    rw [hnode] at hitem
    rw [hnodes] at hitems
    rw [readNodes, hnode, hnodes]
    exact FaultlessFrom.cons hitem hitems

section

variable {limit : Nat} {items : List Json}

theorem ownFault?_eq_none_of_readNodes
    {roots : List Node} (h : readNodes limit [] 0 items = .ok roots)
    {path : NodePath} {value : Json} (hvalue : valueAt? items path = some value) :
    ownFault? limit path value = none := by
  have houtcome := readNodes_outcome limit [] 0 items
  rw [h] at houtcome
  cases path with
  | nil => simp [valueAt?] at hvalue
  | cons index steps =>
      have hown := houtcome index steps value hvalue
      rwa [Nat.zero_add, List.nil_append] at hown

/-- Where a document is refused, the fault is the first one that a value has by itself. -/
theorem exists_ownFault?_of_readNodes
    {fault : Fault} (h : readNodes limit [] 0 items = .error fault) :
    ∃ index steps value, valueAt? items (index :: steps) = some value ∧
      ownFault? limit (index :: steps) value = some fault ∧
      ∀ path other, valueAt? items path = some other →
        NodePath.Precedes path (index :: steps) → ownFault? limit path other = none := by
  have houtcome := readNodes_outcome limit [] 0 items
  rw [h] at houtcome
  obtain ⟨index, steps, value, hvalue, hfault, hearlier⟩ := houtcome
  rw [Nat.zero_add, List.nil_append] at hfault
  refine ⟨index, steps, value, hvalue, hfault, ?_⟩
  intro path other hother hprecedes
  cases path with
  | nil => simp [valueAt?] at hother
  | cons index' steps' =>
      have hown := hearlier index' steps' other hother hprecedes
      rwa [Nat.zero_add, List.nil_append] at hown

end

end TreeGen.TypeTree
