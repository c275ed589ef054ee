import TreeGen.Proofs.Template.Skipped
import TreeGen.Proofs.Template.Subtree

/-!
# Where the depth limit stops an expansion

An expansion visits the nodes whose proper ancestors all have their templates.  It stops at the
first visited node, in pre-order, that lies one level below the limit; whether that node has a
template itself does not matter, since its level is looked at first.  Up to there it has raised the
notices of the topmost unresolved nodes, as an expansion that succeeds does.

A limit that stops nothing leaves no other trace, so a larger one changes nothing.
-/

namespace TreeGen

/-- The level of the node; roots are on level one. -/
def PlacedNode.level (placed : PlacedNode) : Nat :=
  placed.ancestors.length + 1

namespace Node

theorem preorderAll_singleton (ancestors : List Node) (node : Node) :
    preorderAll ancestors [node] = preorder ancestors node := by
  rw [preorderAll, preorderAll, List.append_nil]

theorem mem_preorderAll_cons_iff
    {ancestors rest : List Node} {node : Node} {placed : PlacedNode} :
    placed ∈ preorderAll ancestors (node :: rest) ↔
      placed = ⟨ancestors, node⟩ ∨
        placed ∈ preorderAll (ancestors ++ [node]) node.children ∨
        placed ∈ preorderAll ancestors rest := by
  rw [preorderAll_cons, List.cons_append, List.mem_cons, List.mem_append]

end Node

namespace Template

open ExpansionM
open Node (preorder preorderAll preorderAll_cons preorderAll_singleton mem_preorderAll_cons_iff
  mem_ancestors_of_mem_preorderAll)

/-! ## Visited nodes below the limit -/

/-- The node lies on the first level below the limit, and it is visited: the templates of all its
proper ancestors are present. -/
structure LiesBeyond (templates : Library) (limit : Nat) (placed : PlacedNode) : Prop where
  level : placed.level = limit + 1
  visited : ∀ ancestor ∈ placed.ancestors, templates.resolves ancestor

/-- Of the nodes in `visits`, `placed` is the first one that lies beyond the limit, and the notices
are those of the topmost unresolved nodes before it. -/
def StopsAt
    (templates : Library) (limit : Nat) (visits : List PlacedNode) (placed : PlacedNode)
    (raised : Notices) : Prop :=
  ∃ before after, visits = before ++ placed :: after ∧
    LiesBeyond templates limit placed ∧
    (∀ other ∈ before, ¬ LiesBeyond templates limit other) ∧
    List.Forall₂ (Reports templates) (before.filter (isTopmostUnresolved templates)) raised

section

variable {templates : Library} {limit : Nat} {visits : List PlacedNode} {placed : PlacedNode}
  {raised : Notices}

theorem stopsAt_cons (h : LiesBeyond templates limit placed) (after : List PlacedNode) :
    StopsAt templates limit (placed :: after) placed [] :=
  ⟨[], after, rfl, h, List.forall_mem_nil _, .nil⟩

theorem StopsAt.append_right
    (h : StopsAt templates limit visits placed raised) (behind : List PlacedNode) :
    StopsAt templates limit (visits ++ behind) placed raised := by
  obtain ⟨before, after, hsplit, hbeyond, hbefore, hreports⟩ := h
  refine ⟨before, after ++ behind, ?_, hbeyond, hbefore, hreports⟩
  rw [hsplit, List.append_assoc, List.cons_append]

/-- Nodes in front that do not lie beyond the limit add their notices. -/
theorem StopsAt.append_left
    {front : List PlacedNode} {raised' : Notices}
    (hfront : ∀ other ∈ front, ¬ LiesBeyond templates limit other)
    (hreports : List.Forall₂ (Reports templates)
      (front.filter (isTopmostUnresolved templates)) raised')
    (h : StopsAt templates limit visits placed raised) :
    StopsAt templates limit (front ++ visits) placed (raised' ++ raised) := by
  obtain ⟨before, after, hsplit, hbeyond, hbefore, hbeforeReports⟩ := h
  refine ⟨front ++ before, after, ?_, hbeyond, ?_, ?_⟩
  · rw [hsplit, List.append_assoc]
  · intro other hmem
    rcases List.mem_append.mp hmem with hmem | hmem
    · exact hfront other hmem
    · exact hbefore other hmem
  · rw [List.filter_append]
    exact List.rel_append hreports hbeforeReports

theorem StopsAt.mem (h : StopsAt templates limit visits placed raised) :
    placed ∈ visits ∧ LiesBeyond templates limit placed := by
  obtain ⟨before, after, hsplit, hbeyond, -, -⟩ := h
  constructor
  · rw [hsplit]
    exact List.mem_append_right before List.mem_cons_self
  · exact hbeyond

end

/-! ## Expansions that succeed and expansions that fail -/

section

variable {templates : Library} {limit level : Nat} {above text location : String}
  {nodes : List Node} {raised : Notices}

theorem not_liesBeyond_of_level_le
    {ancestors : List Node} (node : Node) (hlevel : ancestors.length + 1 ≤ limit) :
    ¬ LiesBeyond templates limit ⟨ancestors, node⟩ := by
  intro hbeyond
  have hdeep : ancestors.length + 1 = limit + 1 := hbeyond.level
  omega

/-- An expansion that succeeds has visited no node beyond the limit. -/
theorem Expands.not_liesBeyond
    (h : Expands templates limit above level nodes text raised) (ancestors : List Node)
    (hlevel : level = ancestors.length + 1) :
    ∀ placed ∈ preorderAll ancestors nodes, ¬ LiesBeyond templates limit placed := by
  induction h generalizing ancestors with
  | nil =>
      intro placed hmem
      rw [preorderAll] at hmem
      exact absurd hmem List.not_mem_nil
  | @skipped above level node rest text notice raised within due _ ih =>
      intro placed hmem
      rcases mem_preorderAll_cons_iff.mp hmem with rfl | hmem | hmem
      · exact not_liesBeyond_of_level_le node (hlevel ▸ within)
      · -- Nothing below a skipped node is visited, however deep it lies.
        intro hbeyond
        have hnode : node ∈ placed.ancestors := by
          apply mem_ancestors_of_mem_preorderAll _ _ placed hmem
          exact List.mem_append_right ancestors (List.mem_singleton_self node)
        exact not_resolves_of_due due (hbeyond.visited node hnode)
      · exact ih ancestors hlevel placed hmem
  | @filled above level node rest template inner text below raised within _ _ _ ihInside ih =>
      intro placed hmem
      rcases mem_preorderAll_cons_iff.mp hmem with rfl | hmem | hmem
      · exact not_liesBeyond_of_level_le node (hlevel ▸ within)
      · have hbelow : level + 1 = (ancestors ++ [node]).length + 1 := by
          rw [List.length_append, List.length_singleton, hlevel]
        exact ihInside (ancestors ++ [node]) hbelow placed hmem
      · exact ih ancestors hlevel placed hmem

/-- An expansion that fails stops at the first visited node beyond the limit. -/
theorem Fails.stopsAt
    (h : Fails templates limit above level nodes location raised) (ancestors : List Node)
    (hlevel : level = ancestors.length + 1) (hreached : level ≤ limit + 1)
    (habove : above = locationPrefix ancestors)
    (hancestors : ∀ ancestor ∈ ancestors, templates.resolves ancestor) :
    ∃ placed, location = placed.location ∧
      StopsAt templates limit (preorderAll ancestors nodes) placed raised := by
  induction h generalizing ancestors with
  | @here above level node rest beyond =>
      have hfirst : ancestors.length + 1 = limit + 1 := by omega
      have hbeyond : LiesBeyond templates limit ⟨ancestors, node⟩ := ⟨hfirst, hancestors⟩
      refine ⟨⟨ancestors, node⟩, ?_, ?_⟩
      · rw [PlacedNode.location_eq, habove]
      · rw [preorderAll_cons, List.cons_append]
        exact stopsAt_cons hbeyond _
  | @inside above level node rest template location raised within found _ ih =>
      have hnode : templates.resolves node := resolves_iff.mpr ⟨template, found⟩
      have hbelow := resolves_of_mem_append_singleton hancestors hnode
      have hinside := ih (ancestors ++ [node])
        (by rw [List.length_append, List.length_singleton, hlevel])
        (Nat.succ_le_succ within)
        (by rw [locationPrefix_append_singleton, habove]) hbelow
      obtain ⟨placed, hlocation, hstops⟩ := hinside
      have hfront : ∀ other ∈ [PlacedNode.mk ancestors node],
          ¬ LiesBeyond templates limit other := by
        intro other hmem
        rw [List.mem_singleton.mp hmem]
        exact not_liesBeyond_of_level_le node (hlevel ▸ within)
      have hsilent : List.Forall₂ (Reports templates)
          ([PlacedNode.mk ancestors node].filter (isTopmostUnresolved templates)) [] := by
        rw [List.filter_cons_of_neg (by simp [isTopmostUnresolved, hnode]), List.filter_nil]
        exact .nil
      have hall :=
        StopsAt.append_left hfront hsilent (hstops.append_right (preorderAll ancestors rest))
      rw [preorderAll_cons]
      exact ⟨placed, hlocation, hall⟩
  | @behind above level node rest text location raised raised' first _ ih =>
      obtain ⟨placed, hlocation, hstops⟩ := ih ancestors hlevel hreached habove hancestors
      have hall := StopsAt.append_left (first.not_liesBeyond ancestors hlevel)
        (first.reports ancestors habove hancestors) hstops
      rw [preorderAll_singleton] at hall
      rw [preorderAll]
      exact ⟨placed, hlocation, hall⟩

theorem Expands.of_le
    {larger : Nat} (hle : limit ≤ larger)
    (h : Expands templates limit above level nodes text raised) :
    Expands templates larger above level nodes text raised := by
  induction h with
  | nil => exact .nil
  | skipped within due _ ih => exact .skipped (Nat.le_trans within hle) due ih
  | filled within found _ _ ihInside ih => exact .filled (Nat.le_trans within hle) found ihInside ih

end

/-! ## The limit -/

theorem run_expand_eq_iff
    {expander : Expander} {node : Node} {earlier collected : Notices}
    {result : Except ExpansionError String} :
    (expander.expand node).run.run earlier = (result, collected) ↔
      ∃ raised, Gives (expander.expand node) result raised ∧ collected = earlier ++ raised := by
  constructor
  · rw [Expander.expand_eq_expandEach]
    intro h
    exact Expander.gives_expandEach_of_run h
  · rintro ⟨raised, hgives, rfl⟩
    exact hgives earlier

/-- A tree whose expansion fails has a node beyond the limit, and the failure is at the first. -/
theorem exists_stopsAt_of_run_eq_error
    {templates : Library} {limit : Nat} {node : Node} {earlier collected : Notices}
    {error : ExpansionError}
    (h : (Expander.expand ⟨templates, limit⟩ node).run.run earlier = (.error error, collected)) :
    ∃ placed raised, StopsAt templates limit (preorder [] node) placed raised ∧
      error = .tooDeep placed.location limit ∧ collected = earlier ++ raised := by
  obtain ⟨raised, hgives, hcollected⟩ := run_expand_eq_iff.mp h
  obtain ⟨location, herror, hfails⟩ := (gives_expand_error_iff _).mp hgives
  obtain ⟨placed, hlocation, hstops⟩ :=
    hfails.stopsAt [] rfl (Nat.le_add_left 1 limit) rfl (List.forall_mem_nil _)
  rw [preorderAll_singleton] at hstops
  rw [hlocation] at herror
  exact ⟨placed, raised, hstops, herror, hcollected⟩

/-- An expansion fails exactly when the tree has a node on the first level below the limit whose
proper ancestors all have their templates.  The error names the limit and the first such node in
pre-order, and the notices added are those of the topmost unresolved nodes before it.  An expansion
that succeeds is the same under every larger limit. -/
theorem expand_stops_at_first_beyond
    (templates : Library) (limit : Nat) (node : Node) (earlier : Notices) :
    ((∃ error collected,
        (Expander.expand ⟨templates, limit⟩ node).run.run earlier = (.error error, collected)) ↔
      ∃ placed ∈ preorder [] node, LiesBeyond templates limit placed) ∧
    (∀ error collected,
      (Expander.expand ⟨templates, limit⟩ node).run.run earlier = (.error error, collected) →
        ∃ placed raised, StopsAt templates limit (preorder [] node) placed raised ∧
          error = .tooDeep placed.location limit ∧ collected = earlier ++ raised) ∧
    ∀ text collected,
      (Expander.expand ⟨templates, limit⟩ node).run.run earlier = (.ok text, collected) →
        ∀ larger, limit < larger →
          (Expander.expand ⟨templates, larger⟩ node).run.run earlier = (.ok text, collected) := by
  refine ⟨⟨?_, ?_⟩, ?_, ?_⟩
  · rintro ⟨error, collected, h⟩
    obtain ⟨placed, raised, hstops, -, -⟩ := exists_stopsAt_of_run_eq_error h
    exact ⟨placed, hstops.mem⟩
  · rintro ⟨placed, hmem, hbeyond⟩
    cases hrun : (Expander.expand ⟨templates, limit⟩ node).run.run earlier with
    | mk result collected =>
        cases result with
        | error error => exact ⟨error, collected, rfl⟩
        | ok text =>
            obtain ⟨raised, hgives, -⟩ := run_expand_eq_iff.mp hrun
            have hexpands := (gives_expand_ok_iff _).mp hgives
            rw [← preorderAll_singleton] at hmem
            exact absurd hbeyond (hexpands.not_liesBeyond [] rfl placed hmem)
  · intro error collected h
    exact exists_stopsAt_of_run_eq_error h
  · intro text collected h larger hlarger
    obtain ⟨raised, hgives, hcollected⟩ := run_expand_eq_iff.mp h
    have hexpands := (gives_expand_ok_iff _).mp hgives
    have hlargerGives :=
      (gives_expand_ok_iff ⟨templates, larger⟩).mpr (hexpands.of_le (Nat.le_of_lt hlarger))
    exact run_expand_eq_iff.mpr ⟨raised, hlargerGives, hcollected⟩

/-- The second of the patchy roots is stopped at its grandchild by a limit of two levels, although
that node would be skipped, and by no limit from three levels on. -/
theorem expand_stops_below_patchyRoots :
    (∃ placed raised,
      StopsAt patchyLibrary 2 (preorder [] (patchyRoots[1])) placed raised ∧
        placed.location = "A.B.c" ∧
        raised = [(Notice.missing "Property" "property.txt").located "A."]) ∧
      (Expander.expand ⟨patchyLibrary, 3⟩ (patchyRoots[1])).run.run [] =
        (Expander.expand ⟨patchyLibrary, 1000⟩ (patchyRoots[1])).run.run [] := by
  have hfails : (Expander.expand ⟨patchyLibrary, 2⟩ (patchyRoots[1])).run.run [] =
      (.error (.tooDeep "A.B.c" 2),
        [(Notice.missing "Property" "property.txt").located "A."]) := by
    with_unfolding_all rfl
  have hgives : (Expander.expand ⟨patchyLibrary, 3⟩ (patchyRoots[1])).run.run [] =
      (.ok "block A [class B;]",
        [(Notice.missing "Property" "property.txt").located "A.",
          (Notice.unregistered "Enum").located "A.B.c"]) := by
    with_unfolding_all rfl
  obtain ⟨-, hstops, -⟩ := expand_stops_at_first_beyond patchyLibrary 2 (patchyRoots[1]) []
  obtain ⟨-, -, hlarger⟩ := expand_stops_at_first_beyond patchyLibrary 3 (patchyRoots[1]) []
  constructor
  · obtain ⟨placed, raised, hstopsAt, herror, hcollected⟩ := hstops _ _ hfails
    rw [ExpansionError.tooDeep.injEq] at herror
    rw [List.nil_append] at hcollected
    exact ⟨placed, raised, hstopsAt, herror.1.symm, hcollected.symm⟩
  · rw [hgives, hlarger _ _ hgives 1000 (by decide)]

end Template

end TreeGen
