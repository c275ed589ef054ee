import TreeGen.Proofs.Template.Visited

/-!
# Libraries of templates held in memory

A library of templates that are given by classification can be made directly, or by registering each
classification with itself as its resource and loading from the templates held in memory.  The first
way fills the registry and the texts side by side, the second asks for a text once its resource is
registered, and both leave the same library to look things up in: every classification stands where
it was first given and has the text that was given for it last.
-/

namespace TreeGen.Template

/-- The library that is loaded from templates held in memory, each of them registered for the
classification under which it is held. -/
def loadedTemplates (templates : List (String × String)) : Library :=
  .ofSource (Holdings.text? (.ofList templates))
    (Table.empty.insertMany
      (templates.map fun (classification, _) => (classification, classification)))

section

variable (templates : List (String × String)) (classification : String)

theorem registry_loadedTemplates :
    (loadedTemplates templates).registry = (Library.ofTemplates templates).registry := by
  rw [loadedTemplates, ofSource_eq, registry_loadNoting]
  rfl

theorem resource?_ofTemplates :
    (Library.ofTemplates templates).registry.resource? classification =
      ((Table.ofList templates).get? classification).map fun _ => classification :=
  Table.get?_ofList_map (fun classification _ => classification) templates classification

theorem find_ofTemplates :
    (Library.ofTemplates templates).find classification =
      match (Table.ofList templates).get? classification with
      | none => .unregistered
      | some text => .present text := by
  have htext : (Library.ofTemplates templates).texts.get? classification =
      ((Table.ofList templates).get? classification).map some :=
    Table.get?_ofList_map (fun _ text => some text) templates classification
  rw [Library.find, resource?_ofTemplates]
  cases hgiven : (Table.ofList templates).get? classification with
  | none => rfl
  | some text =>
      rw [hgiven] at htext
      rw [Option.map_some]
      dsimp only
      rw [htext]
      rfl

theorem find_loadedTemplates :
    (loadedTemplates templates).find classification =
      (Library.ofTemplates templates).find classification := by
  have hresource : Registry.resource?
      (Table.empty.insertMany
        (templates.map fun (classification, _) => (classification, classification)))
      classification = ((Table.ofList templates).get? classification).map fun _ => classification :=
    resource?_ofTemplates templates classification
  rw [find_ofTemplates, loadedTemplates, find_ofSource, hresource]
  cases hgiven : (Table.ofList templates).get? classification with
  | none => rfl
  | some text =>
      rw [Option.map_some]
      dsimp only
      rw [Holdings.text?, hgiven]

theorem find_ofTemplates_ne_missing (resource : String) :
    (Library.ofTemplates templates).find classification ≠ .missing resource := by
  rw [find_ofTemplates]
  cases (Table.ofList templates).get? classification with
  | none => exact Availability.noConfusion
  | some text => exact Availability.noConfusion

end

theorem gaps_eq_nil {library : Library}
    (h : ∀ classification resource, library.find classification ≠ .missing resource) :
    library.gaps = [] := by
  rw [Library.gaps_eq, List.filter_eq_nil_iff]
  rintro ⟨classification, resource⟩ _ hmissing
  exact h classification resource (of_decide_eq_true hmissing)

/-- Given templates make the same library whether they are taken as they are or registered one by
one and loaded from memory.  Both registries list every classification once, where it was first
given; both libraries find for it the text that was given last, and nothing for any other; and
neither has a gap.  So every tree is expanded alike with either, whatever notices were collected
before, and every list of roots has the same document or the same error. -/
theorem ofTemplates_agrees_with_load (templates : List (String × String)) :
    (Library.ofTemplates templates).registry = (loadedTemplates templates).registry ∧
    FirstMentions (Library.ofTemplates templates).registry.keys (Entries.keys templates) ∧
    (∀ classification,
      (Library.ofTemplates templates).find classification =
        (loadedTemplates templates).find classification) ∧
    (∀ classification text,
      (Library.ofTemplates templates).find classification = .present text ↔
        IsLatest templates classification text) ∧
    (Library.ofTemplates templates).gaps = [] ∧
    (loadedTemplates templates).gaps = [] ∧
    ∀ limit,
      (∀ root earlier,
        (Expander.expand ⟨.ofTemplates templates, limit⟩ root).run.run earlier =
          (Expander.expand ⟨loadedTemplates templates, limit⟩ root).run.run earlier) ∧
      ∀ roots,
        Document.ofRoots ⟨.ofTemplates templates, limit⟩ roots =
          Document.ofRoots ⟨loadedTemplates templates, limit⟩ roots := by
  have hrecords : (Table.ofList templates).Records templates :=
    (Table.Records.of_entries Table.empty).insertMany templates
  have hagree : ∀ nodes, AgreeOnVisited (loadedTemplates templates) (.ofTemplates templates)
      [] nodes := by
    intro nodes placed _ _
    exact (find_loadedTemplates templates placed.node.classification).symm
  refine ⟨(registry_loadedTemplates templates).symm, ?_, ?_, ?_, ?_, ?_, ?_⟩
  · have hkeys :
        (Library.ofTemplates templates).registry.keys = (Entries.keys templates).eraseDups := by
      rw [Library.ofTemplates, Table.keys_ofList, Entries.keys, List.map_map]
      rfl
    rw [hkeys]
    exact .eraseDups _
  · intro classification
    exact (find_loadedTemplates templates classification).symm
  · intro classification text
    rw [find_ofTemplates, ← hrecords.get?_eq_some_iff]
    cases (Table.ofList templates).get? classification <;> simp
  · exact gaps_eq_nil (find_ofTemplates_ne_missing templates)
  · apply gaps_eq_nil
    intro classification
    rw [find_loadedTemplates]
    exact find_ofTemplates_ne_missing templates classification
  · intro limit
    constructor
    · intro root earlier
      exact run_expand_of_looksAlike limit (.refl _ root) (hagree [root]) earlier
    · intro roots
      exact ofRoots_of_looksAlike limit (LooksAlike.refl_all _ roots) (hagree roots)

/-- A classification that is given again keeps its place and changes its text. -/
example :
    (Library.ofTemplates [("A", "1"), ("B", "2"), ("A", "3")]).registry.keys = ["A", "B"] ∧
      (loadedTemplates [("A", "1"), ("B", "2"), ("A", "3")]).find "A" = .present "3" := by
  decide

end TreeGen.Template
