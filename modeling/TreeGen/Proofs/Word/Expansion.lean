import TreeGen.Proofs.Document
import TreeGen.Proofs.Template.DepthLimit
import TreeGen.Proofs.Word.Reading

/-!
# Expanding a type tree with a level of 64 bits

The level of a node is the one number that is counted while a tree is expanded.  It is counted
again for every child, before anything is known about the child, and it never exceeds the depth of
the tree.  So a tree that is no deeper than the largest number is expanded as it is without bounds,
and the largest number stops nothing when it is the limit.

Together with what is known of readings, this says what comes of counting in 64 bits: nothing else
than of counting without bounds.
-/

namespace TreeGen

open Node (depth_eq_height height_eq heightAll)
open Template (Expander ExpansionError Library Values expands_or_fails patchyLibrary patchyRoots)
open TypeTree (mixedNode mixedText)
open Template.ExpansionM (Gives)

/-! ## A limit that no tree exceeds -/

/-- A tree that is no deeper than a limit expands alike under every larger one. -/
theorem Template.exists_gives_of_depth_le
    (templates : Library) {bound : Nat} {root : Node} (hdepth : root.depth ≤ bound) :
    ∃ text raised, ∀ limit, bound ≤ limit →
      Gives (Expander.expand ⟨templates, limit⟩ root) (.ok text) raised := by
  have hheight : heightAll [root] ≤ bound := by
    rw [heightAll, heightAll, ← depth_eq_height]
    omega
  rcases expands_or_fails templates bound [root] "" 1 with
    ⟨text, raised, hexpands⟩ | ⟨location, raised, hfails⟩
  · refine ⟨text, raised, ?_⟩
    intro limit hle
    rw [Expander.expand_eq_expandEach]
    exact Expander.gives_expandEach_of_expands (hexpands.of_le hle)
  · have hhigh := hfails.lt_heightAll
    omega

namespace Word

/-! ## Expanding in 64 bits -/

/-- A computation that collects notices and may fail, and that gives nothing where a number would
take more than 64 bits. -/
abbrev ExpansionM := ExceptT ExpansionError (StateT Notices Option)

def raise (notice : Notice) : ExpansionM Unit :=
  modify (· ++ [notice])

section

variable (templates : Library) (limit : UInt64)

mutual

def expandNode (location : String) (level : UInt64) : Node → ExpansionM String
  | ⟨name, classification, declaredType, children⟩ =>
    if level > limit then
      throw (.tooDeep location limit.toNat)
    else
      match templates.find classification with
      | .present template => do
        let inner ← expandChildren location level children
        let values : Values :=
          { name := some name
            typeName := declaredType.filter (· ≠ "")
            children := some inner }
        return values.fill template
      | .unregistered => do
        raise ((Notice.unregistered classification).located location)
        return ""
      | .missing resource => do
        raise ((Notice.missing classification resource).located location)
        return ""

def expandChildren (location : String) (level : UInt64) : List Node → ExpansionM String
  | [] => return ""
  | child :: rest => do
    let first ← expandNode (location ++ "." ++ child.name) (← next? level) child
    let others ← expandChildren location level rest
    return first ++ others

end

def expand (root : Node) : ExpansionM String :=
  expandNode templates limit root.name 1 root

end

/-! ## Two computations that agree -/

section

variable {α β : Type}

/-- Whatever notices were collected before, the computation in 64 bits gives something, and it is
what the computation without bounds gives. -/
def Agrees (bounded : ExpansionM α) (unbounded : Template.ExpansionM α) : Prop :=
  ∀ earlier, bounded.run.run earlier = some (unbounded.run.run earlier)

theorem agrees_pure (value : α) : Agrees (pure value) (pure value) := by
  intro earlier
  rfl

theorem agrees_throw (error : ExpansionError) :
    Agrees (throw error : ExpansionM α) (throw error) := by
  intro earlier
  rfl

theorem agrees_raise (notice : Notice) : Agrees (raise notice) (Expander.raise notice) := by
  intro earlier
  rfl

theorem Agrees.bind
    {bounded : ExpansionM α} {unbounded : Template.ExpansionM α}
    {boundedNext : α → ExpansionM β} {unboundedNext : α → Template.ExpansionM β}
    (h : Agrees bounded unbounded)
    (hnext : ∀ value, Agrees (boundedNext value) (unboundedNext value)) :
    Agrees (bounded >>= boundedNext) (unbounded >>= unboundedNext) := by
  intro earlier
  rw [ExceptT.run_bind, ExceptT.run_bind, StateT.run_bind, StateT.run_bind, h earlier]
  rcases unbounded.run.run earlier with ⟨error | value, collected⟩
  · rfl
  · exact hnext value collected

theorem agrees_of_next?
    {level : UInt64} {next : Next level} {boundedNext : Next level → ExpansionM β}
    {unbounded : Template.ExpansionM β}
    (hnext : next? level = some next) (h : Agrees (boundedNext next) unbounded) :
    Agrees (liftM (next? level) >>= boundedNext) unbounded := by
  rw [hnext]
  exact h

end

/-! ## No counter overflows -/

section

variable (templates : Library) (limit : UInt64)

mutual

/-- The levels below a node together with its own do not exceed the largest number. -/
theorem expandNode_agrees :
    ∀ (location : String) (level : UInt64) (node : Node),
      level.toNat + heightAll node.children ≤ largestLimit →
        Agrees (expandNode templates limit location level node)
          (Expander.expandNode ⟨templates, limit.toNat⟩ location level.toNat node)
  | location, level, ⟨name, classification, declaredType, children⟩, hroom => by
    rw [expandNode, Expander.expandNode]
    by_cases hdeep : level > limit
    · have hdeep' : level.toNat > limit.toNat := UInt64.lt_iff_toNat_lt.mp hdeep
      rw [if_pos hdeep, if_pos hdeep']
      exact agrees_throw _
    · have hwithin : ¬ level.toNat > limit.toNat := by
        intro hdeep'
        exact hdeep (UInt64.lt_iff_toNat_lt.mpr hdeep')
      rw [if_neg hdeep, if_neg hwithin]
      cases templates.find classification with
      | present template =>
          have hchildren := expandChildren_agrees location level children hroom
          exact hchildren.bind fun inner => agrees_pure _
      | unregistered => exact (agrees_raise _).bind fun _ => agrees_pure ""
      | missing resource => exact (agrees_raise _).bind fun _ => agrees_pure ""

theorem expandChildren_agrees :
    ∀ (location : String) (level : UInt64) (children : List Node),
      level.toNat + heightAll children ≤ largestLimit →
        Agrees (expandChildren templates limit location level children)
          (Expander.expandChildren ⟨templates, limit.toNat⟩ location (level.toNat + 1) children)
  | location, level, [], _ => by
    rw [expandChildren, Expander.expandChildren]
    exact agrees_pure ""
  | location, level, child :: rest, hroom => by
    rw [heightAll, height_eq] at hroom
    obtain ⟨next, hnext⟩ := exists_next? level (by omega)
    have hvalue := next.property
    have hfirst :=
      expandNode_agrees (location ++ "." ++ child.name) next child (by omega)
    have hothers := expandChildren_agrees location level rest (by omega)
    rw [hvalue] at hfirst
    rw [expandChildren, Expander.expandChildren]
    exact agrees_of_next? hnext
      (hfirst.bind fun first => hothers.bind fun others => agrees_pure _)

end

theorem expand_agrees {root : Node} (hdepth : root.depth ≤ largestLimit) :
    Agrees (expand templates limit root) (Expander.expand ⟨templates, limit.toNat⟩ root) := by
  apply expandNode_agrees
  rwa [depth_eq_height, height_eq] at hdepth

end

/-! ## The numbers never show -/

/-- Numbers of 64 bits make no difference.  A text of fewer than `2 ^ 63` bytes is read under every
limit as it is with numbers that have no bounds, no counter exceeds the largest number, and the
largest limit finds no text too deep.  A tree that is no deeper than the largest number is expanded
under every limit as it is without bounds, and from the largest limit on all limits are one: the
tree expands, to the same text and with the same notices. -/
theorem bounded_numbers_make_no_difference :
    (∀ (source : Source) (limit : UInt64), source.text.utf8ByteSize < 2 ^ 63 →
      read source limit = some (TypeTree.readUnbounded source limit.toNat) ∧
        TypeTree.read source limit.toNat = TypeTree.readUnbounded source limit.toNat ∧
        ∀ location bound span,
          TypeTree.read source largestLimit ≠ .error (.tooDeep location bound span)) ∧
      ∀ (templates : Library) (root : Node), root.depth ≤ largestLimit →
        (∀ limit, Agrees (expand templates limit root)
          (Expander.expand ⟨templates, limit.toNat⟩ root)) ∧
          ∃ text raised, ∀ limit, largestLimit ≤ limit →
            Gives (Expander.expand ⟨templates, limit⟩ root) (.ok text) raised := by
  constructor
  · intro source limit hsize
    have hsmall : source.text.utf8ByteSize ≤ largestLimit := by
      rw [largestLimit]
      omega
    have hunbounded := TypeTree.read_eq_readUnbounded hsmall limit.toNat
    refine ⟨?_, hunbounded, TypeTree.read_largestLimit_ne_tooDeep hsmall⟩
    rw [read_eq hsize, hunbounded]
  · intro templates root hdepth
    exact ⟨fun limit => expand_agrees templates limit hdepth,
      Template.exists_gives_of_depth_le templates hdepth⟩

set_option maxRecDepth 2000 in
/-- Under the largest limit, a text of two levels is read in 64 bits up to the child that is no
object, and the second of the patchy roots is expanded down to its grandchild. -/
theorem numbers_of_largest_limit :
    read ⟨"context.json", mixedText⟩ 0xFFFFFFFFFFFFFFFF =
        some (.error (.badNode "[0].Children[0]" "expected an object, found null" none)) ∧
      (expand patchyLibrary 0xFFFFFFFFFFFFFFFF patchyRoots[1]).run.run [] =
        some (.ok "block A [class B;]",
          [(Notice.missing "Property" "property.txt").located "A.",
            (Notice.unregistered "Enum").located "A.B.c"]) ∧
      ∀ limit, largestLimit ≤ limit → ∃ collected,
        (Expander.expand ⟨patchyLibrary, limit⟩ patchyRoots[1]).run.run [] =
          (.ok "block A [class B;]", collected) := by
  have hscan : Json.Nesting.firstExcess? mixedText (TypeTree.bracketLimit largestLimit) = none := by
    decide +kernel
  have hvalue : Json.read mixedText = .ok (some (.array [mixedNode])) := by
    with_unfolding_all rfl
  have hroots : TypeTree.readNodes largestLimit [] 0 [mixedNode] =
      .error (.broken [0, 0] ⟨.notObject .null, none⟩) := by
    with_unfolding_all rfl
  have hread : TypeTree.read ⟨"context.json", mixedText⟩ largestLimit =
      .error (.badNode "[0].Children[0]" "expected an object, found null" none) := by
    simp only [TypeTree.read, hscan, hvalue, TypeTree.readDocument, hroots]
    rfl
  have hgives : (Expander.expand ⟨patchyLibrary, largestLimit⟩ patchyRoots[1]).run.run [] =
      (.ok "block A [class B;]",
        [(Notice.missing "Property" "property.txt").located "A.",
          (Notice.unregistered "Enum").located "A.B.c"]) := by
    with_unfolding_all rfl
  obtain ⟨hsource, htree⟩ := bounded_numbers_make_no_difference
  obtain ⟨hbounded, hunbounded, -⟩ :=
    hsource ⟨"context.json", mixedText⟩ 0xFFFFFFFFFFFFFFFF (by decide +kernel)
  obtain ⟨hagrees, text, raised, hlimits⟩ :=
    htree patchyLibrary patchyRoots[1] (by with_unfolding_all decide)
  have htext := (hlimits largestLimit (Nat.le_refl _) []).symm.trans hgives
  rw [Prod.mk.injEq, Except.ok.injEq] at htext
  refine ⟨?_, ?_, ?_⟩
  · rw [hbounded, ← hunbounded]
    exact congrArg some hread
  · rw [hagrees 0xFFFFFFFFFFFFFFFF []]
    exact congrArg some hgives
  · intro limit hle
    rw [hlimits limit hle [], htext.1]
    exact ⟨_, rfl⟩

end Word

end TreeGen
