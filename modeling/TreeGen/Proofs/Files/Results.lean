import Mathlib.Tactic.Choose
import TreeGen.Proofs.Files.Execution

/-!
# What every result of a program satisfies

Files may change while a program reads them, so what a program returns is not a function of the
files at any one moment.  Some things hold of its results all the same, because of what the program
does with whatever it finds.  This is said here of programs in any monad: such a program is one that
returns certified values, with the certificates forgotten.
-/

namespace TreeGen

section

variable {m : Type → Type} [Monad m] [LawfulMonad m] {α β : Type} {P : α → Prop} {Q : β → Prop}

/-- All that a program returns has a property. -/
def Always (P : α → Prop) (program : m α) : Prop :=
  ∃ certified : m { value // P value }, Subtype.val <$> certified = program

theorem always_pure {value : α} (h : P value) : Always P (pure value : m α) :=
  ⟨pure ⟨value, h⟩, map_pure _ _⟩

theorem always_true (program : m α) : Always (fun _ => True) program := by
  refine ⟨(fun value => ⟨value, trivial⟩) <$> program, ?_⟩
  rw [Functor.map_map, id_map']

theorem Always.mono
    {P' : α → Prop} {program : m α} (h : Always P program) (himp : ∀ value, P value → P' value) :
    Always P' program := by
  obtain ⟨certified, rfl⟩ := h
  refine ⟨(fun value => ⟨value.1, himp value.1 value.2⟩) <$> certified, ?_⟩
  rw [Functor.map_map]

theorem Always.bind
    {program : m α} {next : α → m β}
    (h : Always P program) (hnext : ∀ value, P value → Always Q (next value)) :
    Always Q (program >>= next) := by
  obtain ⟨certified, rfl⟩ := h
  choose certifiedNext hcertified using hnext
  refine ⟨certified >>= fun value => certifiedNext value.1 value.2, ?_⟩
  rw [map_bind, bind_map_left]
  exact bind_congr fun value => hcertified value.1 value.2

end

namespace Files

variable {α : Type} {P : α → Prop} {program : StateM Tree α}

/-- On a tree of files a program returns only what it always returns. -/
theorem Tree.execute_of_always (h : Always P program) (files : Tree) :
    P (files.execute program).1 := by
  obtain ⟨certified, rfl⟩ := h
  exact (files.execute certified).1.2

end Files

end TreeGen
