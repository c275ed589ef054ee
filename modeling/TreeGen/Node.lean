import TreeGen.Classification

/-!
# Type nodes

A node of the type tree has a name, a classification that selects its template, an optional
declared type, and children in the order in which they are emitted.  Names of siblings may
coincide.
-/

namespace TreeGen

/-- One node of a type tree with everything below it. -/
structure Node where
  name : String
  classification : String
  declaredType : Option String
  children : List Node
deriving Repr

namespace Node

def leaf (name classification : String) : Node :=
  ⟨name, classification, none, []⟩

def kind (node : Node) : Classification :=
  .ofText node.classification

/-- The declared type that a template sees: an empty one counts as absent. -/
def typeName? (node : Node) : Option String :=
  node.declaredType.filter (· ≠ "")

def isLeaf (node : Node) : Bool :=
  node.children.isEmpty

/-! ## Equality -/

mutual

/-- Two nodes are equal when their own texts and their children are. -/
def decideEq : (a b : Node) → Decidable (a = b)
  | ⟨name, classification, declaredType, children⟩,
    ⟨name', classification', declaredType', children'⟩ =>
    if own : name = name' ∧ classification = classification' ∧ declaredType = declaredType' then
      match decideEqAll children children' with
      | isTrue below => isTrue (by rw [own.1, own.2.1, own.2.2, below])
      | isFalse below => isFalse fun h => below (Node.mk.inj h).2.2.2
    else
      isFalse fun h => own ⟨(Node.mk.inj h).1, (Node.mk.inj h).2.1, (Node.mk.inj h).2.2.1⟩

def decideEqAll : (a b : List Node) → Decidable (a = b)
  | [], [] => isTrue rfl
  | [], b :: bs => isFalse (List.cons_ne_nil b bs).symm
  | a :: as, [] => isFalse (List.cons_ne_nil a as)
  | a :: as, b :: bs =>
    match decideEq a b, decideEqAll as bs with
    | isTrue first, isTrue others => isTrue (by rw [first, others])
    | isFalse first, _ => isFalse fun h => first (List.cons.inj h).1
    | _, isFalse others => isFalse fun h => others (List.cons.inj h).2

end

instance : DecidableEq Node := decideEq

end Node

end TreeGen
