import Mathlib.Data.List.Forall2
import TreeGen.Proofs.Template.Expansion

/-!
# A subtree in its place and on its own

Expanding the children of a node differs from expanding them as roots in three ways: they lie one
level deeper, their locations start with the name of the node, and the notices of earlier siblings
have been collected before.  None of the three shows in a text.  Under a limit that is larger by one
a list of nodes does below another node what it does on its own, with every location prefixed.

So the expansion of a node is put together from those of its children, whether these succeed or one
of them fails.
-/

namespace TreeGen

/-- The notice with a text put before its location. -/
def Notice.within (outer : String) (notice : Notice) : Notice :=
  { notice with location := notice.location.map (outer ++ ·) }

theorem Notice.within_located (outer : String) (notice : Notice) (location : String) :
    (notice.located location).within outer = notice.located (outer ++ location) :=
  rfl

namespace Template

open ExpansionM

/-! ## Moving nodes below another node -/

section

variable {templates : Library} {limit : Nat} {above : String} {level : Nat} {nodes : List Node}

theorem Expands.moved
    {text : String} {raised : Notices} (outer : String)
    (h : Expands templates limit above level nodes text raised) :
    Expands templates (limit + 1) (outer ++ above) (level + 1) nodes text
      (raised.map (Notice.within outer)) := by
  induction h with
  | nil => exact .nil
  | skipped within due _ ih =>
      rw [List.map_cons, Notice.within_located, ← String.append_assoc]
      exact .skipped (Nat.succ_le_succ within) due ih
  | filled within found _ _ ihInside ih =>
      rw [← String.append_assoc, ← String.append_assoc] at ihInside
      rw [List.map_append]
      exact .filled (Nat.succ_le_succ within) found ihInside ih

theorem Fails.moved
    {location : String} {raised : Notices} (outer : String)
    (h : Fails templates limit above level nodes location raised) :
    Fails templates (limit + 1) (outer ++ above) (level + 1) nodes (outer ++ location)
      (raised.map (Notice.within outer)) := by
  induction h with
  | here beyond =>
      rw [← String.append_assoc]
      exact .here (Nat.succ_lt_succ beyond)
  | inside within found _ ih =>
      rw [← String.append_assoc, ← String.append_assoc] at ih
      exact .inside (Nat.succ_le_succ within) found ih
  | behind first _ ih =>
      rw [List.map_append]
      exact .behind (first.moved outer) ih

/-- A failure is not changed by nodes behind the one that fails. -/
theorem Fails.append_right
    {location : String} {raised : Notices}
    (h : Fails templates limit above level nodes location raised) (nodes' : List Node) :
    Fails templates limit above level (nodes ++ nodes') location raised := by
  induction h with
  | here beyond => exact .here beyond
  | inside within found below _ => exact .inside within found below
  | behind first _ ih => exact .behind first ih

end

/-! ## Nodes on their own -/

/-- The tree, expanded as a root, gives a text. -/
def CanExpand (expander : Expander) (root : Node) : Prop :=
  ∃ text raised, Gives (expander.expand root) (.ok text) raised

/-- Each tree, expanded as a root, gives a text and raises notices. -/
def EachGives (expander : Expander) : List Node → List (String × Notices) → Prop :=
  List.Forall₂ fun root outcome => Gives (expander.expand root) (.ok outcome.1) outcome.2

theorem gives_expand_ok_iff
    (expander : Expander) {root : Node} {text : String} {raised : Notices} :
    Gives (expander.expand root) (.ok text) raised ↔
      Expands expander.templates expander.maxDepth "" 1 [root] text raised := by
  rw [Expander.expand_eq_expandEach, Expander.gives_expandEach_ok_iff]

theorem gives_expand_error_iff
    (expander : Expander) {root : Node} {error : ExpansionError} {raised : Notices} :
    Gives (expander.expand root) (.error error) raised ↔
      ∃ location, error = .tooDeep location expander.maxDepth ∧
        Fails expander.templates expander.maxDepth "" 1 [root] location raised := by
  rw [Expander.expand_eq_expandEach, Expander.gives_expandEach_error_iff]

theorem EachGives.expands
    {expander : Expander} {roots : List Node} {outcomes : List (String × Notices)}
    (h : EachGives expander roots outcomes) :
    Expands expander.templates expander.maxDepth "" 1 roots (String.join (outcomes.map Prod.fst))
      (outcomes.flatMap Prod.snd) := by
  induction h with
  | nil => exact .nil
  | cons hroot _ ih =>
      rw [List.map_cons, String.join_cons, List.flatMap_cons]
      exact ((gives_expand_ok_iff expander).mp hroot).append ih

theorem exists_eachGives
    {expander : Expander} {roots : List Node} (h : ∀ root ∈ roots, CanExpand expander root) :
    ∃ outcomes, EachGives expander roots outcomes := by
  induction roots with
  | nil => exact ⟨[], .nil⟩
  | cons root rest ih =>
      obtain ⟨⟨text, raised, hroot⟩, hrest⟩ := List.forall_mem_cons.mp h
      obtain ⟨outcomes, houtcomes⟩ := ih hrest
      exact ⟨(text, raised) :: outcomes, .cons hroot houtcomes⟩

theorem exists_first_failing
    {expander : Expander} {roots : List Node} (h : ∃ root ∈ roots, ¬ CanExpand expander root) :
    ∃ before failing after outcomes location raised,
      roots = before ++ failing :: after ∧
        EachGives expander before outcomes ∧
        Gives (expander.expand failing) (.error (.tooDeep location expander.maxDepth)) raised := by
  induction roots with
  | nil => simp at h
  | cons root rest ih =>
      rcases expands_or_fails expander.templates expander.maxDepth [root] "" 1 with
        ⟨text, raised, hroot⟩ | ⟨location, raised, hroot⟩
      · have hfirst := (gives_expand_ok_iff expander).mpr hroot
        have hrest : ∃ root ∈ rest, ¬ CanExpand expander root := by
          obtain ⟨other, hother, hfails⟩ := h
          rcases List.mem_cons.mp hother with rfl | hother
          · exact absurd ⟨text, raised, hfirst⟩ hfails
          · exact ⟨other, hother, hfails⟩
        obtain ⟨before, failing, after, outcomes, location, raised', rfl, hbefore, hfailing⟩ :=
          ih hrest
        exact ⟨root :: before, failing, after, (text, raised) :: outcomes, location, raised', rfl,
          .cons hfirst hbefore, hfailing⟩
      · have hfirst := (gives_expand_error_iff expander).mpr ⟨location, rfl, hroot⟩
        exact ⟨[], root, rest, [], location, raised, rfl, .nil, hfirst⟩

/-! ## The expansion of a node from those of its children -/

section

variable {templates : Library} {limit : Nat} {node : Node} {template : String}
  (hfound : templates.find node.classification = .present template)

include hfound

theorem gives_expand_of_expands_children
    {inner : String} {raised : Notices}
    (h : Expands templates limit "" 1 node.children inner raised) :
    Gives (Expander.expand ⟨templates, limit + 1⟩ node) (.ok (fillFor node template inner))
      (raised.map (Notice.within (node.name ++ "."))) := by
  have hinside := h.moved ("" ++ node.name ++ ".")
  rw [String.append_empty] at hinside
  have hnode := Expands.filled (Nat.le_add_left 1 limit) hfound hinside .nil
  rw [String.append_empty, List.append_nil, String.empty_append] at hnode
  exact (gives_expand_ok_iff ⟨templates, limit + 1⟩).mpr hnode

theorem gives_expand_of_children_fail
    {location : String} {raised : Notices}
    (h : Fails templates limit "" 1 node.children location raised) :
    Gives (Expander.expand ⟨templates, limit + 1⟩ node)
      (.error (.tooDeep (node.name ++ "." ++ location) (limit + 1)))
      (raised.map (Notice.within (node.name ++ "."))) := by
  have hinside := h.moved ("" ++ node.name ++ ".")
  rw [String.append_empty] at hinside
  have hnode : Fails templates (limit + 1) "" 1 [node] _ _ :=
    .inside (Nat.le_add_left 1 limit) hfound hinside
  rw [String.empty_append] at hnode
  exact (gives_expand_error_iff ⟨templates, limit + 1⟩).mpr ⟨_, rfl, hnode⟩

theorem gives_expand_of_eachGives
    {outcomes : List (String × Notices)}
    (h : EachGives ⟨templates, limit⟩ node.children outcomes) :
    Gives (Expander.expand ⟨templates, limit + 1⟩ node)
      (.ok (fillFor node template (String.join (outcomes.map Prod.fst))))
      ((outcomes.flatMap Prod.snd).map (Notice.within (node.name ++ "."))) :=
  gives_expand_of_expands_children hfound h.expands

theorem gives_expand_of_first_failing
    {before after : List Node} {failing : Node} {outcomes : List (String × Notices)}
    {location : String} {raised : Notices}
    (hchildren : node.children = before ++ failing :: after)
    (hbefore : EachGives ⟨templates, limit⟩ before outcomes)
    (hfailing : Gives (Expander.expand ⟨templates, limit⟩ failing)
      (.error (.tooDeep location limit)) raised) :
    Gives (Expander.expand ⟨templates, limit + 1⟩ node)
      (.error (.tooDeep (node.name ++ "." ++ location) (limit + 1)))
      ((outcomes.flatMap Prod.snd ++ raised).map (Notice.within (node.name ++ "."))) := by
  obtain ⟨_, hlocation, hfails⟩ := (gives_expand_error_iff ⟨templates, limit⟩).mp hfailing
  cases hlocation
  have hbelow := Fails.append_left hbefore.expands (hfails.append_right after)
  rw [List.singleton_append, ← hchildren] at hbelow
  exact gives_expand_of_children_fail hfound hbelow

end

/-- A node whose template is present expands exactly when each of its children expands on its own
under a limit smaller by one.  Then its text is the template filled with its name, its type unless
that is empty, and the joined texts of the children, and the notices are those of the children in
their order, with the name of the node before every location.  Otherwise the first child that fails
decides the error, and the notices are those of the children before it and its own. -/
theorem expand_of_present
    (templates : Library) (limit : Nat) (node : Node) (template : String)
    (hfound : templates.find node.classification = .present template) :
    (CanExpand ⟨templates, limit + 1⟩ node ↔
        ∀ child ∈ node.children, CanExpand ⟨templates, limit⟩ child) ∧
      ((∀ child ∈ node.children, CanExpand ⟨templates, limit⟩ child) →
        ∃ outcomes, EachGives ⟨templates, limit⟩ node.children outcomes ∧
          Gives (Expander.expand ⟨templates, limit + 1⟩ node)
            (.ok (Values.fill
              { name := some node.name
                typeName := node.declaredType.filter (· ≠ "")
                children := some (String.join (outcomes.map Prod.fst)) }
              template))
            ((outcomes.flatMap Prod.snd).map (Notice.within (node.name ++ ".")))) ∧
      ((∃ child ∈ node.children, ¬ CanExpand ⟨templates, limit⟩ child) →
        ∃ before failing after outcomes location raised,
          node.children = before ++ failing :: after ∧
            EachGives ⟨templates, limit⟩ before outcomes ∧
            Gives (Expander.expand ⟨templates, limit⟩ failing)
              (.error (.tooDeep location limit)) raised ∧
            Gives (Expander.expand ⟨templates, limit + 1⟩ node)
              (.error (.tooDeep (node.name ++ "." ++ location) (limit + 1)))
              ((outcomes.flatMap Prod.snd ++ raised).map
                (Notice.within (node.name ++ ".")))) := by
  refine ⟨⟨?_, ?_⟩, ?_, ?_⟩
  · rintro ⟨text, raised, hnode⟩
    by_contra hchildren
    push Not at hchildren
    obtain ⟨before, failing, after, outcomes, location, raised', hsplit, hbefore, hfailing⟩ :=
      exists_first_failing hchildren
    have hfails := gives_expand_of_first_failing hfound hsplit hbefore hfailing
    cases (hnode.unique hfails).1
  · intro hchildren
    obtain ⟨outcomes, houtcomes⟩ := exists_eachGives hchildren
    exact ⟨_, _, gives_expand_of_eachGives hfound houtcomes⟩
  · intro hchildren
    obtain ⟨outcomes, houtcomes⟩ := exists_eachGives hchildren
    exact ⟨outcomes, houtcomes, gives_expand_of_eachGives hfound houtcomes⟩
  · intro hchildren
    obtain ⟨before, failing, after, outcomes, location, raised, hsplit, hbefore, hfailing⟩ :=
      exists_first_failing hchildren
    exact ⟨before, failing, after, outcomes, location, raised, hsplit, hbefore, hfailing,
      gives_expand_of_first_failing hfound hsplit hbefore hfailing⟩

/-! ## A node whose second child is too deep -/

def classLibrary : Library :=
  .ofTemplates [("Class", "class \x7bName\x7d \x7b\x7bChildren\x7d\x7d")]

/-- A node with a child that is skipped, a child with a child of its own, and one more. -/
def crowdedNode : Node :=
  ⟨"A", "Class", none, [.leaf "x" "Enum", ⟨"B", "Class", none, [.leaf "C" "Class"]⟩,
    .leaf "y" "Enum"]⟩

def skippedLeaf (location : String) : Notice :=
  (Notice.unregistered "Enum").located location

theorem expand_crowdedNode :
    classLibrary.find crowdedNode.classification =
        .present "class \x7bName\x7d \x7b\x7bChildren\x7d\x7d" ∧
      Gives (Expander.expand ⟨classLibrary, 3⟩ crowdedNode)
        (.ok "class A \x7bclass B \x7bclass C \x7b\x7d\x7d\x7d")
        [skippedLeaf "A.x", skippedLeaf "A.y"] ∧
      (∃ child ∈ crowdedNode.children, ¬ CanExpand ⟨classLibrary, 1⟩ child) ∧
      ¬ CanExpand ⟨classLibrary, 2⟩ crowdedNode ∧
      Gives (Expander.expand ⟨classLibrary, 2⟩ crowdedNode)
        (.error (.tooDeep "A.B.C" 2)) [skippedLeaf "A.x"] := by
  have hfound : classLibrary.find crowdedNode.classification =
      .present "class \x7bName\x7d \x7b\x7bChildren\x7d\x7d" := by
    decide
  obtain ⟨-, hall, -⟩ := expand_of_present classLibrary 2 crowdedNode _ hfound
  obtain ⟨hexpands, -, hfirst⟩ := expand_of_present classLibrary 1 crowdedNode _ hfound
  have hleaf : ∀ name, CanExpand ⟨classLibrary, 2⟩ (.leaf name "Enum") := by
    intro name
    exact ⟨"", [skippedLeaf name], fun earlier => rfl⟩
  have hinner : CanExpand ⟨classLibrary, 2⟩ ⟨"B", "Class", none, [.leaf "C" "Class"]⟩ := by
    refine ⟨"class B \x7bclass C \x7b\x7d\x7d", [], ?_⟩
    intro earlier
    rw [List.append_nil]
    with_unfolding_all rfl
  have hchildren : ∀ child ∈ crowdedNode.children, CanExpand ⟨classLibrary, 2⟩ child := by
    rw [crowdedNode, List.forall_mem_cons, List.forall_mem_cons, List.forall_mem_singleton]
    exact ⟨hleaf "x", hinner, hleaf "y"⟩
  have hdeep : ¬ CanExpand ⟨classLibrary, 1⟩ ⟨"B", "Class", none, [.leaf "C" "Class"]⟩ := by
    rintro ⟨text, raised, hgives⟩
    have hrun := hgives []
    cases hrun
  have hfails : ∃ child ∈ crowdedNode.children, ¬ CanExpand ⟨classLibrary, 1⟩ child :=
    ⟨_, .tail _ (.head _), hdeep⟩
  refine ⟨hfound, ?_, hfails, ?_, ?_⟩
  · obtain ⟨outcomes, -, hgives⟩ := hall hchildren
    exact hgives.of_run (by with_unfolding_all rfl)
  · intro hnode
    exact hdeep (hexpands.mp hnode _ (.tail _ (.head _)))
  · obtain ⟨_, _, _, _, _, _, _, _, _, hgives⟩ := hfirst hfails
    exact hgives.of_run (by with_unfolding_all rfl)

end Template

end TreeGen
