import TreeGen.Template.Expander

/-!
# Expansion as a relation

Children below a node and roots below nothing are expanded by the same loop: both are nodes of one
level whose locations start with a common text.  What the loop can do is said here once, by two
relations.  `Expands` has a rule for each way in which a list of nodes expands to a text, `Fails`
one for each way in which it meets a node below the limit.  Every list does one or the other, and
the computations do what the relations say, whatever notices were collected before.

Facts about expansion are proved by induction on these rules.  They speak of lists, so that the
children of a node and the siblings behind it are smaller in the same sense.
-/

namespace TreeGen.Template

/-! ## What a computation gives -/

namespace ExpansionM

variable {α β : Type} {computation : ExpansionM α} {next : α → ExpansionM β}

/-- Whatever notices were collected before, the computation ends with this result and has added
these notices to them. -/
def Gives
    (computation : ExpansionM α)
    (result : Except ExpansionError α)
    (raised : Notices) :
    Prop :=
  ∀ earlier, computation.run.run earlier = (result, earlier ++ raised)

theorem Gives.unique
    {result result' : Except ExpansionError α} {raised raised' : Notices}
    (h : Gives computation result raised) (h' : Gives computation result' raised') :
    result = result' ∧ raised = raised' := by
  have heq := (h []).symm.trans (h' [])
  rwa [Prod.mk.injEq, List.nil_append, List.nil_append] at heq

/-- One run shows what a computation gives, if it gives the same on every run. -/
theorem Gives.of_run
    {result result' : Except ExpansionError α} {raised raised' : Notices}
    (h : Gives computation result raised) (hrun : computation.run.run [] = (result', raised')) :
    Gives computation result' raised' := by
  have heq := (h []).symm.trans hrun
  rw [Prod.mk.injEq, List.nil_append] at heq
  obtain ⟨rfl, rfl⟩ := heq
  exact h

theorem gives_pure (value : α) : Gives (pure value) (.ok value) [] := by
  intro earlier
  rw [List.append_nil]
  rfl

theorem gives_throw (error : ExpansionError) :
    Gives (throw error : ExpansionM α) (.error error) [] := by
  intro earlier
  rw [List.append_nil]
  rfl

theorem gives_raise (notice : Notice) : Gives (Expander.raise notice) (.ok ()) [notice] := by
  intro earlier
  rfl

theorem Gives.bind
    {value : α} {result : Except ExpansionError β} {raised raised' : Notices}
    (h : Gives computation (.ok value) raised) (hnext : Gives (next value) result raised') :
    Gives (computation >>= next) result (raised ++ raised') := by
  intro earlier
  rw [ExceptT.run_bind, StateT.run_bind, h earlier, ← List.append_assoc]
  exact hnext (earlier ++ raised)

theorem Gives.bind_pure
    {value : α} {raised : Notices} (f : α → β) (h : Gives computation (.ok value) raised) :
    Gives (computation >>= fun value => pure (f value)) (.ok (f value)) raised := by
  intro earlier
  rw [ExceptT.run_bind, StateT.run_bind, h earlier]
  rfl

theorem Gives.bind_error
    {error : ExpansionError} {raised : Notices}
    (h : Gives computation (.error error) raised) :
    Gives (computation >>= next) (.error error) raised := by
  intro earlier
  rw [ExceptT.run_bind, StateT.run_bind, h earlier]
  rfl

end ExpansionM

open ExpansionM

/-! ## One loop for roots and children -/

def fillFor (node : Node) (template inner : String) : String :=
  Values.fill
    { name := some node.name, typeName := node.typeName?, children := some inner } template

/-- The notice that is due when a node of this classification is skipped; none is due for a
template that is present. -/
def Library.dueNotice? (library : Library) (classification : String) : Option Notice :=
  match library.find classification with
  | .present _ => none
  | .unregistered => some (.unregistered classification)
  | .missing resource => some (.missing classification resource)

def Library.resolves (library : Library) (node : Node) : Bool :=
  (library.find node.classification).template?.isSome

theorem resolves_iff {library : Library} {node : Node} :
    library.resolves node ↔ ∃ template, library.find node.classification = .present template := by
  rw [Library.resolves]
  cases library.find node.classification <;> simp [Availability.template?]

theorem dueNotice?_eq_none_iff {library : Library} {node : Node} :
    library.dueNotice? node.classification = none ↔ library.resolves node := by
  rw [Library.dueNotice?, Library.resolves]
  cases library.find node.classification <;> simp [Availability.template?]

theorem not_resolves_of_due
    {library : Library} {node : Node} {notice : Notice}
    (h : library.dueNotice? node.classification = some notice) :
    ¬ library.resolves node := by
  rw [← dueNotice?_eq_none_iff, h]
  exact Option.some_ne_none notice

theorem resolves_of_mem_append_singleton
    {library : Library} {ancestors : List Node} {node : Node}
    (hancestors : ∀ ancestor ∈ ancestors, library.resolves ancestor)
    (hnode : library.resolves node) :
    ∀ ancestor ∈ ancestors ++ [node], library.resolves ancestor := by
  intro ancestor hmem
  rcases List.mem_append.mp hmem with hmem | hmem
  · exact hancestors ancestor hmem
  · rwa [List.mem_singleton.mp hmem]

namespace Expander

variable (expander : Expander)

/-- Expand nodes of one level whose locations start with `above`, and join the results. -/
def expandEach (above : String) (level : Nat) : List Node → ExpansionM String
  | [] => return ""
  | node :: rest => do
    let first ← expander.expandNode (above ++ node.name) level node
    let others ← expandEach above level rest
    return first ++ others

theorem expandChildren_eq_expandEach (location : String) (level : Nat) (children : List Node) :
    expander.expandChildren location level children =
      expander.expandEach (location ++ ".") level children := by
  induction children with
  | nil => rw [expandChildren, expandEach]
  | cons child rest ih => rw [expandChildren, expandEach, ih]

theorem expandAll_eq_expandEach (roots : List Node) :
    expander.expandAll roots = expander.expandEach "" 1 roots := by
  induction roots with
  | nil => rw [expandAll, expandEach]
  | cons root rest ih => rw [expandAll, expandEach, ih, expand, String.empty_append]

theorem expandEach_singleton (above : String) (level : Nat) (node : Node) :
    expander.expandEach above level [node] =
      expander.expandNode (above ++ node.name) level node := by
  simp [expandEach]

theorem expand_eq_expandEach (root : Node) :
    expander.expand root = expander.expandEach "" 1 [root] := by
  rw [expandEach_singleton, String.empty_append, expand]

theorem expandNode_eq (location : String) (level : Nat) (node : Node) :
    expander.expandNode location level node =
      if level > expander.maxDepth then throw (.tooDeep location expander.maxDepth)
      else
        match expander.templates.find node.classification with
        | .present template => do
          let inner ← expander.expandEach (location ++ ".") (level + 1) node.children
          return fillFor node template inner
        | .unregistered => do
          raise ((Notice.unregistered node.classification).located location)
          return ""
        | .missing resource => do
          raise ((Notice.missing node.classification resource).located location)
          return "" := by
  obtain ⟨name, classification, declaredType, children⟩ := node
  rw [expandNode, expandChildren_eq_expandEach]
  rfl

end Expander

/-! ## What the loop can do -/

section

variable (templates : Library) (limit : Nat)

/-- Nodes of one level whose locations start with `above` expand to a text and raise notices. -/
inductive Expands : String → Nat → List Node → String → Notices → Prop where
  | nil {above : String} {level : Nat} : Expands above level [] "" []
  | skipped {above : String} {level : Nat} {node : Node} {rest : List Node} {text : String}
      {notice : Notice} {raised : Notices}
      (within : level ≤ limit)
      (due : templates.dueNotice? node.classification = some notice)
      (others : Expands above level rest text raised) :
      Expands above level (node :: rest) text (notice.located (above ++ node.name) :: raised)
  | filled {above : String} {level : Nat} {node : Node} {rest : List Node}
      {template inner text : String} {below raised : Notices}
      (within : level ≤ limit)
      (found : templates.find node.classification = .present template)
      (inside : Expands (above ++ node.name ++ ".") (level + 1) node.children inner below)
      (others : Expands above level rest text raised) :
      Expands above level (node :: rest) (fillFor node template inner ++ text) (below ++ raised)

/-- Expanding nodes of one level whose locations start with `above` meets a node below the limit, at
a location, after it has raised notices. -/
inductive Fails : String → Nat → List Node → String → Notices → Prop where
  | here {above : String} {level : Nat} {node : Node} {rest : List Node}
      (beyond : limit < level) :
      Fails above level (node :: rest) (above ++ node.name) []
  | inside {above : String} {level : Nat} {node : Node} {rest : List Node}
      {template location : String} {raised : Notices}
      (within : level ≤ limit)
      (found : templates.find node.classification = .present template)
      (below : Fails (above ++ node.name ++ ".") (level + 1) node.children location raised) :
      Fails above level (node :: rest) location raised
  | behind {above : String} {level : Nat} {node : Node} {rest : List Node}
      {text location : String} {raised raised' : Notices}
      (first : Expands templates limit above level [node] text raised)
      (others : Fails above level rest location raised') :
      Fails above level (node :: rest) location (raised ++ raised')

end

section

variable {templates : Library} {limit : Nat} {above : String} {level : Nat}

theorem Expands.append
    {nodes nodes' : List Node} {text text' : String} {raised raised' : Notices}
    (h : Expands templates limit above level nodes text raised)
    (h' : Expands templates limit above level nodes' text' raised') :
    Expands templates limit above level (nodes ++ nodes') (text ++ text') (raised ++ raised') := by
  induction h with
  | nil =>
      rw [String.empty_append]
      exact h'
  | skipped within due _ ih => exact .skipped within due (ih h')
  | filled within found inside _ _ ih =>
      rw [String.append_assoc, List.append_assoc]
      exact .filled within found inside (ih h')

theorem Expands.of_cons
    {node : Node} {rest : List Node} {text : String} {raised : Notices}
    (h : Expands templates limit above level (node :: rest) text raised) :
    ∃ first others raised₁ raised₂,
      Expands templates limit above level [node] first raised₁ ∧
        Expands templates limit above level rest others raised₂ ∧
        text = first ++ others ∧ raised = raised₁ ++ raised₂ := by
  cases h with
  | skipped within due others =>
      exact ⟨"", text, _, _, .skipped within due .nil, others, String.empty_append.symm, rfl⟩
  | filled within found inside others =>
      refine ⟨_, _, _, _, .filled within found inside .nil, others, ?_, ?_⟩
      · rw [String.append_empty]
      · rw [List.append_nil]

theorem Fails.append_left
    {nodes nodes' : List Node} {text location : String} {raised raised' : Notices}
    (h : Expands templates limit above level nodes text raised)
    (h' : Fails templates limit above level nodes' location raised') :
    Fails templates limit above level (nodes ++ nodes') location (raised ++ raised') := by
  induction nodes generalizing text raised with
  | nil =>
      cases h
      exact h'
  | cons node nodes ih =>
      obtain ⟨first, others, raised₁, raised₂, hfirst, hothers, -, rfl⟩ := h.of_cons
      rw [List.append_assoc]
      exact .behind hfirst (ih hothers)

theorem expands_or_fails (templates : Library) (limit : Nat) :
    ∀ (nodes : List Node) (above : String) (level : Nat),
      (∃ text raised, Expands templates limit above level nodes text raised) ∨
        ∃ location raised, Fails templates limit above level nodes location raised
  | [], above, level => .inl ⟨"", [], .nil⟩
  | ⟨name, classification, declaredType, children⟩ :: rest, above, level => by
    let node : Node := ⟨name, classification, declaredType, children⟩
    by_cases hlevel : level ≤ limit
    · cases hdue : templates.dueNotice? node.classification with
      | some notice =>
          rcases expands_or_fails templates limit rest above level with
            ⟨text, raised, hrest⟩ | ⟨location, raised, hrest⟩
          · exact .inl ⟨_, _, .skipped hlevel hdue hrest⟩
          · exact .inr ⟨_, _, .behind (.skipped hlevel hdue .nil) hrest⟩
      | none =>
          obtain ⟨template, hfound⟩ := resolves_iff.mp (dueNotice?_eq_none_iff.mp hdue)
          rcases expands_or_fails templates limit children (above ++ name ++ ".") (level + 1) with
            ⟨inner, below, hinside⟩ | ⟨location, below, hinside⟩
          · rcases expands_or_fails templates limit rest above level with
              ⟨text, raised, hrest⟩ | ⟨location, raised, hrest⟩
            · exact .inl ⟨_, _, .filled hlevel hfound hinside hrest⟩
            · exact .inr ⟨_, _, .behind (.filled hlevel hfound hinside .nil) hrest⟩
          · exact .inr ⟨_, _, .inside hlevel hfound hinside⟩
    · exact .inr ⟨_, _, .here (Nat.lt_of_not_le hlevel)⟩

end

/-! ## The computations do what the relations say -/

namespace Expander

variable {expander : Expander} {above : String} {level : Nat} {node : Node} {nodes : List Node}

theorem gives_expandNode_of_due
    {location : String} {notice : Notice} (hlevel : level ≤ expander.maxDepth)
    (hdue : expander.templates.dueNotice? node.classification = some notice) :
    Gives (expander.expandNode location level node) (.ok "") [notice.located location] := by
  rw [expandNode_eq, if_neg (Nat.not_lt.mpr hlevel)]
  rw [Library.dueNotice?] at hdue
  cases hfind : expander.templates.find node.classification with
  | present template =>
      rw [hfind] at hdue
      cases hdue
  | unregistered =>
      rw [hfind] at hdue
      cases hdue
      exact (gives_raise _).bind (gives_pure "")
  | missing resource =>
      rw [hfind] at hdue
      cases hdue
      exact (gives_raise _).bind (gives_pure "")

theorem gives_expandNode_of_present
    {location template inner : String} {raised : Notices} (hlevel : level ≤ expander.maxDepth)
    (hfound : expander.templates.find node.classification = .present template)
    (hinner : Gives (expander.expandEach (location ++ ".") (level + 1) node.children)
      (.ok inner) raised) :
    Gives (expander.expandNode location level node) (.ok (fillFor node template inner)) raised := by
  rw [expandNode_eq, if_neg (Nat.not_lt.mpr hlevel), hfound]
  exact hinner.bind_pure (fillFor node template)

theorem gives_expandNode_of_inside
    {location template : String} {error : ExpansionError} {raised : Notices}
    (hlevel : level ≤ expander.maxDepth)
    (hfound : expander.templates.find node.classification = .present template)
    (hinner : Gives (expander.expandEach (location ++ ".") (level + 1) node.children)
      (.error error) raised) :
    Gives (expander.expandNode location level node) (.error error) raised := by
  rw [expandNode_eq, if_neg (Nat.not_lt.mpr hlevel), hfound]
  exact hinner.bind_error

theorem gives_expandNode_of_beyond (location : String) (hlevel : expander.maxDepth < level) :
    Gives (expander.expandNode location level node)
      (.error (.tooDeep location expander.maxDepth)) [] := by
  rw [expandNode_eq, if_pos hlevel]
  exact gives_throw _

theorem gives_expandEach_cons
    {first others : String} {raised raised' : Notices}
    (hfirst : Gives (expander.expandNode (above ++ node.name) level node) (.ok first) raised)
    (hothers : Gives (expander.expandEach above level nodes) (.ok others) raised') :
    Gives (expander.expandEach above level (node :: nodes)) (.ok (first ++ others))
      (raised ++ raised') := by
  rw [expandEach]
  exact hfirst.bind (hothers.bind_pure (first ++ ·))

theorem gives_expandEach_of_expands
    {text : String} {raised : Notices}
    (h : Expands expander.templates expander.maxDepth above level nodes text raised) :
    Gives (expander.expandEach above level nodes) (.ok text) raised := by
  induction h with
  | nil =>
      rw [expandEach]
      exact gives_pure ""
  | skipped within due _ ih =>
      have hjoined := gives_expandEach_cons (gives_expandNode_of_due within due) ih
      rwa [String.empty_append] at hjoined
  | filled within found _ _ ihInside ihOthers =>
      exact gives_expandEach_cons (gives_expandNode_of_present within found ihInside) ihOthers

theorem gives_expandEach_of_fails
    {location : String} {raised : Notices}
    (h : Fails expander.templates expander.maxDepth above level nodes location raised) :
    Gives (expander.expandEach above level nodes)
      (.error (.tooDeep location expander.maxDepth)) raised := by
  induction h with
  | here beyond =>
      rw [expandEach]
      exact (gives_expandNode_of_beyond _ beyond).bind_error
  | inside within found _ ih =>
      rw [expandEach]
      exact (gives_expandNode_of_inside within found ih).bind_error
  | behind first _ ih =>
      have hfirst := gives_expandEach_of_expands first
      rw [expandEach_singleton] at hfirst
      rw [expandEach]
      exact hfirst.bind ih.bind_error

theorem gives_expandEach_cases
    (expander : Expander) (above : String) (level : Nat) (nodes : List Node) :
    (∃ text raised, Gives (expander.expandEach above level nodes) (.ok text) raised ∧
        Expands expander.templates expander.maxDepth above level nodes text raised) ∨
      ∃ location raised,
        Gives (expander.expandEach above level nodes)
            (.error (.tooDeep location expander.maxDepth)) raised ∧
          Fails expander.templates expander.maxDepth above level nodes location raised := by
  rcases expands_or_fails expander.templates expander.maxDepth nodes above level with
    ⟨text, raised, hexpands⟩ | ⟨location, raised, hfails⟩
  · exact .inl ⟨text, raised, gives_expandEach_of_expands hexpands, hexpands⟩
  · exact .inr ⟨location, raised, gives_expandEach_of_fails hfails, hfails⟩

/-- The loop gives a text exactly when the nodes expand to it. -/
theorem gives_expandEach_ok_iff (text : String) (raised : Notices) :
    Gives (expander.expandEach above level nodes) (.ok text) raised ↔
      Expands expander.templates expander.maxDepth above level nodes text raised := by
  refine ⟨fun h => ?_, gives_expandEach_of_expands⟩
  rcases gives_expandEach_cases expander above level nodes with
    ⟨text', raised', hgives, hexpands⟩ | ⟨location, raised', hgives, -⟩
  · obtain ⟨htext, rfl⟩ := h.unique hgives
    cases htext
    exact hexpands
  · cases (h.unique hgives).1

theorem gives_expandEach_error_iff (error : ExpansionError) (raised : Notices) :
    Gives (expander.expandEach above level nodes) (.error error) raised ↔
      ∃ location, error = .tooDeep location expander.maxDepth ∧
        Fails expander.templates expander.maxDepth above level nodes location raised := by
  constructor
  · intro h
    rcases gives_expandEach_cases expander above level nodes with
      ⟨text, raised', hgives, -⟩ | ⟨location, raised', hgives, hfails⟩
    · cases (h.unique hgives).1
    · obtain ⟨herror, rfl⟩ := h.unique hgives
      cases herror
      exact ⟨location, rfl, hfails⟩
  · rintro ⟨location, rfl, hfails⟩
    exact gives_expandEach_of_fails hfails

/-- What a run comes to does not depend on the notices collected before. -/
theorem gives_expandEach_of_run
    {result : Except ExpansionError String} {earlier collected : Notices}
    (h : (expander.expandEach above level nodes).run.run earlier = (result, collected)) :
    ∃ raised, Gives (expander.expandEach above level nodes) result raised ∧
      collected = earlier ++ raised := by
  have hgives : ∃ result raised, Gives (expander.expandEach above level nodes) result raised := by
    rcases gives_expandEach_cases expander above level nodes with
      ⟨text, raised, hgives, -⟩ | ⟨location, raised, hgives, -⟩
    · exact ⟨_, raised, hgives⟩
    · exact ⟨_, raised, hgives⟩
  obtain ⟨result', raised, hgives⟩ := hgives
  rw [hgives earlier, Prod.mk.injEq] at h
  obtain ⟨rfl, rfl⟩ := h
  exact ⟨raised, hgives, rfl⟩

end Expander

end TreeGen.Template
