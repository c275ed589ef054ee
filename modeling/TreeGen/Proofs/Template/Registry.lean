import TreeGen.Proofs.Table.History
import TreeGen.Workspace

/-!
# Registries as records of registrations

A registry changes by registrations, one at a time or many at once.  After any number of changes it
is the record of all registrations so far, those it started out with first: every classification
has one place, which is that of its first registration, and one resource, which is that of its last.
The answer to a registration is what this record said just before.
-/

namespace TreeGen.Template.Registry

/-! ## Changes -/

/-- A change of a registry. -/
inductive Change where
  /-- Register a classification, and answer with the resource that it had. -/
  | register (classification resource : String)
  /-- Register a classification without an answer. -/
  | add (classification resource : String)
  | extend (pairs : List (String × String))
deriving DecidableEq, Repr

namespace Change

def pairs : Change → List (String × String)
  | .register classification resource => [(classification, resource)]
  | .add classification resource => [(classification, resource)]
  | .extend pairs => pairs

/-- The answer to a change and the registry after it. -/
def apply (registry : Registry) : Change → Option String × Registry
  | .register classification resource => registry.register classification resource
  | .add classification resource => (none, (registry.register classification resource).2)
  | .extend pairs => (none, registry.insertMany pairs)

end Change

/-- Change a registry step by step; the answers stand in the order of the changes. -/
def run (registry : Registry) : List Change → List (Option String) × Registry
  | [] => ([], registry)
  | change :: changes =>
    let (answer, next) := change.apply registry
    let (answers, last) := run next changes
    (answer :: answers, last)

/-- All registrations there have been, those of the registry at the start first. -/
def history (start : Registry) (changes : List Change) : List (String × String) :=
  start.entries ++ changes.flatMap Change.pairs

/-! ## What a run preserves -/

section

variable {registry : Registry} {history : List (String × String)}

theorem records_apply (h : registry.Records history) (change : Change) :
    (change.apply registry).2.Records (history ++ change.pairs) := by
  cases change with
  | register classification resource => exact h.insert classification resource
  | add classification resource => exact h.insert classification resource
  | extend pairs => exact h.insertMany pairs

theorem records_run (h : registry.Records history) (changes : List Change) :
    (registry.run changes).2.Records (history ++ changes.flatMap Change.pairs) := by
  induction changes generalizing registry history with
  | nil =>
      rw [List.flatMap_nil, List.append_nil]
      exact h
  | cons change changes ih =>
      rw [List.flatMap_cons, ← List.append_assoc]
      exact ih (records_apply h change)

theorem run_cons (registry : Registry) (change : Change) (changes : List Change) :
    registry.run (change :: changes) =
      ((change.apply registry).1 :: ((change.apply registry).2.run changes).1,
        ((change.apply registry).2.run changes).2) :=
  rfl

theorem run_append (registry : Registry) (before after : List Change) :
    registry.run (before ++ after) =
      ((registry.run before).1 ++ ((registry.run before).2.run after).1,
        ((registry.run before).2.run after).2) := by
  induction before generalizing registry with
  | nil => rfl
  | cons change before ih =>
      rw [List.cons_append, run_cons, run_cons, ih, List.cons_append]

theorem length_answers (registry : Registry) (changes : List Change) :
    (registry.run changes).1.length = changes.length := by
  induction changes generalizing registry with
  | nil => rfl
  | cons change changes ih =>
      rw [run_cons, List.length_cons, List.length_cons, ih]

/-- The answer to a registration is the resource that the classification has at that point. -/
theorem getElem?_answers (registry : Registry) (before after : List Change)
    (classification resource : String) :
    (registry.run (before ++ .register classification resource :: after)).1[before.length]? =
      some ((registry.run before).2.resource? classification) := by
  rw [run_append, List.getElem?_append_right (Nat.le_of_eq (length_answers registry before)),
    length_answers, Nat.sub_self]
  rfl

/-- Registering pairs one by one comes to the same as registering them at once. -/
theorem run_map_register (registry : Registry) (pairs : List (String × String)) :
    (registry.run (pairs.map fun pair => .register pair.1 pair.2)).2 =
      registry.insertMany pairs := by
  induction pairs generalizing registry with
  | nil => rfl
  | cons pair pairs ih => exact ih (registry.insert pair.1 pair.2)

end

/-! ## What a registry is -/

/-- A registry that has been changed in any way is the record of all registrations so far: it lists
every classification once, in the order of the first registrations, with the resource registered
last.  It knows that resource for every classification that was ever registered and none for any
other, and is as large as there are different classifications.  Every registration is answered by
the resource that the classification had just before.  Registering many at once is registering them
one by one.  So the registry of a workspace is the record of the built-in registrations followed by
the configured ones. -/
theorem run_records_registrations (start : Registry) (changes : List Change) :
    (start.run changes).2.Records (history start changes) ∧
      (∀ classification resource,
        (start.run changes).2.resource? classification = some resource ↔
          IsLatest (history start changes) classification resource) ∧
      (∀ classification,
        (start.run changes).2.resource? classification = none ↔
          classification ∉ Entries.keys (history start changes)) ∧
      (start.run changes).2.size = (Entries.keys (history start changes)).toFinset.card ∧
      (∀ before after classification resource,
        changes = before ++ .register classification resource :: after →
          (start.run changes).1[before.length]? =
            some ((start.run before).2.resource? classification)) ∧
      (∀ pairs,
        (start.run (changes ++ [.extend pairs])).2 =
          (start.run (changes ++ pairs.map fun pair => .register pair.1 pair.2)).2) ∧
      ∀ workspace : Workspace,
        workspace.registry.Records (builtin.entries ++ workspace.located.config.registrations) := by
  have hrecords : (start.run changes).2.Records (history start changes) :=
    records_run (.of_entries start) changes
  refine ⟨hrecords, ?_, ?_, hrecords.size_eq, ?_, ?_, ?_⟩
  · intro classification resource
    exact hrecords.get?_eq_some_iff
  · intro classification
    exact hrecords.get?_eq_none_iff
  · rintro before after classification resource rfl
    exact getElem?_answers start before after classification resource
  · intro pairs
    rw [run_append, run_append, run_map_register]
    rfl
  · intro workspace
    exact (Table.Records.of_entries builtin).insertMany _

/-- A new classification, a built-in one twice overridden, and another new one. -/
def mixedChanges : List Change :=
  [.extend [("Enum", "enum.tmpl"), ("Class", "struct.tmpl")], .register "Class" "record.tmpl",
    .add "Enum" "", .register "Field" "record.tmpl"]

theorem run_mixedChanges :
    (builtin.run mixedChanges).2.entries =
        [("Class", "record.tmpl"), ("Property", "property-template.tmpl"), ("Enum", ""),
          ("Field", "record.tmpl")] ∧
      (builtin.run mixedChanges).1[1]? = some (some "struct.tmpl") ∧
      (builtin.run mixedChanges).1[3]? = some none ∧
      (builtin.run mixedChanges).2.size = 4 := by
  obtain ⟨hrecords, -, -, hsize, hanswers, -⟩ := run_records_registrations builtin mixedChanges
  refine ⟨by decide, ?_, ?_, ?_⟩
  · exact hanswers [.extend [("Enum", "enum.tmpl"), ("Class", "struct.tmpl")]] _ "Class" _ rfl
  · exact hanswers (mixedChanges.take 3) [] "Field" "record.tmpl" rfl
  · rw [hsize]
    decide

end TreeGen.Template.Registry
