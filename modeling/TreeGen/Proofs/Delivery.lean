import TreeGen.Delivery.ToFile
import TreeGen.Proofs.Files.Execution
import TreeGen.Proofs.Files.Tree

/-!
# Storing a text under a path

Whatever the access, a text that cannot be stored leaves nothing but directories behind, if a write
that is refused touches no file.

On a tree of files there are three ways in which storing a text can end, and `Stores` says what each
one means for the files: the file held the text already and nothing has changed; it holds the text
now and, apart from it, at most directories have been added; or the text could not be stored and
directories are all that has been added.
-/

namespace TreeGen.Delivery

open Files
open Files.Tree (Keeps)

/-! ## Over any access -/

section

variable {σ Place : Type} [WritesFiles (StateM σ)] {entryAt : σ → Place → Option Entry}
  (horderly : Orderly entryAt)

include horderly

theorem keptOrMade_makeRoom (path : String) (before : σ) (place : Place) :
    KeptOrMade (entryAt before place)
      (entryAt (StateT.run (makeRoom path : StateM σ Bool) before).2 place) := by
  rw [makeRoom]
  cases Path.parent? path with
  | none => exact .refl _
  | some parent => exact horderly.createDirectories parent before place

/-- A text that could not be stored has changed no file. -/
theorem keptOrMade_of_toFile_eq_none
    {path content : String} {before after : σ}
    (h : StateT.run (toFile path content : StateM σ (Option Delivery)) before = (none, after))
    (place : Place) :
    KeptOrMade (entryAt before place) (entryAt after place) := by
  obtain ⟨found, read, hfound, h⟩ := exists_of_run_bind h
  have hread : entryAt read = entryAt before := (horderly.readText? path).eq_of_run hfound
  split at h
  · cases h
  · obtain ⟨made, roomy, hmade, h⟩ := exists_of_run_bind h
    have hroom := keptOrMade_makeRoom horderly path read place
    rw [hmade, hread] at hroom
    cases made with
    | false =>
        cases h
        exact hroom
    | true =>
        obtain ⟨written, last, hwritten, h⟩ := exists_of_run_bind h
        cases written with
        | true => cases h
        | false =>
            cases h
            rw [horderly.refused hwritten]
            exact hroom

end

/-! ## On a tree of files -/

/-- How storing a text under a path can end, and what it leaves behind. -/
inductive Stores (before : Files.Tree) (path content : String) :
    Option Delivery → Files.Tree → Prop where
  | unchanged (held : before.text? path = some content) :
      Stores before path content (some .unchanged) before
  | written {after : Files.Tree} {location : Location}
      (differs : before.text? path ≠ some content)
      (stored : after.text? path = some content)
      (located : after.locate path = .ok location)
      (elsewhere : ∀ other, other ≠ location → Keeps before after other) :
      Stores before path content (some .written) after
  | refused {after : Files.Tree}
      (differs : before.text? path ≠ some content)
      (everywhere : ∀ location, Keeps before after location) :
      Stores before path content none after

theorem execute_toFile_of_text?
    {files : Files.Tree} {path content : String} (h : files.text? path = some content) :
    files.execute (toFile path content) = (some .unchanged, files) := by
  rw [toFile, Tree.execute_bind, Tree.execute_readText?, if_pos h]
  rfl

theorem stores_toFile (files : Files.Tree) (path content : String) :
    Stores files path content
      (files.execute (toFile path content)).1 (files.execute (toFile path content)).2 := by
  by_cases hheld : files.text? path = some content
  · rw [execute_toFile_of_text? hheld]
    exact .unchanged hheld
  · rw [toFile, Tree.execute_bind, Tree.execute_readText?, if_neg hheld, Tree.execute_bind]
    have hroom : ∀ location, Keeps files (files.execute (makeRoom path)).2 location :=
      keptOrMade_makeRoom Tree.orderly path files
    cases hmade : files.execute (makeRoom path) with
    | mk made roomy =>
        rw [hmade] at hroom
        cases made with
        | false => exact .refused hheld hroom
        | true =>
            dsimp only
            rw [if_pos rfl, Tree.execute_bind, Tree.execute_writeText]
            cases hwrite : roomy.writeFile path (.text content) with
            | mk written after =>
                cases written with
                | true =>
                    obtain ⟨hstored, location, hlocated, hother⟩ := Tree.of_writeFile_text hwrite
                    refine .written hheld hstored hlocated ?_
                    intro other hne
                    exact (hroom other).trans (.inl (hother other hne))
                | false =>
                    obtain rfl := Tree.eq_of_writeFile_eq_false hwrite
                    exact .refused hheld hroom

/-! ## What a stored text means -/

section

variable {before after : Files.Tree} {path content : String} {delivery : Delivery}

theorem Stores.text?_eq (h : Stores before path content (some delivery) after) :
    after.text? path = some content := by
  cases h with
  | unchanged held => exact held
  | written _ stored _ _ => exact stored

/-- A stored text lies at one place, and every other place is kept. -/
theorem Stores.exists_locate (h : Stores before path content (some delivery) after) :
    ∃ location, after.locate path = .ok location ∧
      ∀ other, other ≠ location → Keeps before after other := by
  cases h with
  | unchanged held =>
      obtain ⟨location, hlocated⟩ := Tree.exists_locate_of_text?_eq_some held
      exact ⟨location, hlocated, fun other _ => .refl _⟩
  | written _ _ located elsewhere => exact ⟨_, located, elsewhere⟩

theorem Stores.unchanged_iff (h : Stores before path content (some delivery) after) :
    delivery = .unchanged ↔ before.text? path = some content := by
  cases h with
  | unchanged held => exact iff_of_true rfl held
  | written differs _ _ _ => exact iff_of_false Delivery.noConfusion differs

theorem Stores.eq_of_unchanged (h : Stores before path content (some .unchanged) after) :
    after = before := by
  cases h with
  | unchanged held => rfl

end

end TreeGen.Delivery
