import TreeGen.Proofs.Table.History
import TreeGen.Proofs.Template.Library

/-!
# Loading the templates of a registry

Loading walks through the registrations and asks for every resource that has not been asked for.
This comes to the same as asking for each resource where it is first mentioned.  So a library that
is loaded from a source which answers by name knows of every classification just what the registry
and the source say: no resource that is registered can be lacking from it.
-/

namespace TreeGen.Template

/-- The resources that are registered, each at its first mention. -/
def Registry.resources (registry : Registry) : List String :=
  (registry.entries.map Prod.snd).eraseDups

/-! ## Asking in turn -/

section

variable {m : Type → Type} [Monad m] [LawfulMonad m]

/-- Walking on from some texts asks for the other resources, each where it is first mentioned. -/
theorem foldlM_askOnce (ask : String → m (Option String))
    (texts : Table String (Option String)) (mentions : List String) :
    mentions.foldlM (Library.askOnce ask) texts = (do
      let answers ← (mentions.removeAll texts.keys).eraseDups.mapM fun resource => do
        return (resource, ← ask resource)
      return texts.insertMany answers) := by
  induction mentions generalizing texts with
  | nil => simp [List.removeAll, Table.insertMany]
  | cons resource mentions ih =>
      rw [List.foldlM_cons, Library.askOnce, List.cons_removeAll]
      by_cases hasked : resource ∈ texts.keys
      · rw [if_pos (Table.contains_iff.mpr hasked), pure_bind, ih, if_neg (by simpa using hasked)]
      · have hkeys : ∀ text, (texts.insert resource text).keys = texts.keys ++ [resource] := by
          intro text
          exact (Entries.keys_put resource text texts.entries).trans (if_neg hasked)
        rw [if_neg (mt Table.contains_iff.mp hasked), if_pos (by simpa using hasked),
          List.eraseDups_cons]
        simp only [bind_assoc, pure_bind, List.mapM_cons, ih, hkeys,
          Table.removeAll_append_singleton]
        rfl

/-- Whatever asking does, a registry is loaded by asking for each of its resources once. -/
theorem load_eq_mapM (ask : String → m (Option String)) (registry : Registry) :
    Library.load ask registry = (do
      let answers ← registry.resources.mapM fun resource => do
        return (resource, ← ask resource)
      return ⟨registry, .ofList answers⟩) := by
  have hnone : ∀ mentions : List String,
      mentions.removeAll (Table.empty : Table String (Option String)).keys = mentions := by
    intro mentions
    exact List.filter_eq_self.mpr fun _ _ => rfl
  rw [Library.load, foldlM_askOnce, hnone, bind_assoc]
  simp only [pure_bind]
  rfl

end

/-! ## The requests -/

/-- Ask a source that answers by name, and note the request. -/
def noting (source : String → Option String) (resource : String) :
    StateM (List String) (Option String) := do
  modify (· ++ [resource])
  return source resource

/-- The library that is loaded from a source, and the requests in their order. -/
def loadNoting (source : String → Option String) (registry : Registry) : Library × List String :=
  StateT.run (Library.load (noting source) registry) []

theorem run_mapM_noting (source : String → Option String) (resources noted : List String) :
    StateT.run (resources.mapM fun resource => do return (resource, ← noting source resource))
        noted =
      ((resources.map fun resource => (resource, source resource), noted ++ resources) :
        List (String × Option String) × List String) := by
  induction resources generalizing noted with
  | nil =>
      rw [List.mapM_nil, List.append_nil]
      rfl
  | cons resource resources ih =>
      have hfirst : StateT.run (do return (resource, ← noting source resource)) noted =
          (((resource, source resource), noted ++ [resource]) :
            (String × Option String) × List String) :=
        rfl
      have hrest := ih (noted ++ [resource])
      rw [List.append_assoc, List.singleton_append] at hrest
      rw [List.mapM_cons, StateT.run_bind, hfirst]
      change StateT.run (_ >>= _) (noted ++ [resource]) = _
      rw [StateT.run_bind, hrest]
      rfl

theorem loadNoting_eq (source : String → Option String) (registry : Registry) :
    loadNoting source registry =
      (⟨registry, .ofList (registry.resources.map fun resource => (resource, source resource))⟩,
        registry.resources) := by
  rw [loadNoting, load_eq_mapM, StateT.run_bind, run_mapM_noting]
  rfl

/-! ## What is known -/

/-- What a source and a registry say about a classification when they are asked directly. -/
inductive PlainLookup (source : String → Option String) (registry : Registry)
    (classification : String) : Availability → Prop where
  | unregistered (unlisted : classification ∉ registry.keys) :
      PlainLookup source registry classification .unregistered
  | present {resource text : String}
      (listed : (classification, resource) ∈ registry.entries)
      (found : source resource = some text) :
      PlainLookup source registry classification (.present text)
  | missing {resource : String}
      (listed : (classification, resource) ∈ registry.entries)
      (absent : source resource = none) :
      PlainLookup source registry classification (.missing resource)

section

variable (source : String → Option String) (registry : Registry)

theorem registry_loadNoting : (loadNoting source registry).1.registry = registry := by
  rw [loadNoting_eq]

theorem get?_texts_loadNoting {resource : String} (h : resource ∈ registry.resources) :
    (loadNoting source registry).1.texts.get? resource = some (source resource) := by
  have hkeys : Entries.keys (registry.resources.map fun resource => (resource, source resource)) =
      registry.resources := by
    rw [Entries.keys, List.map_map]
    exact List.map_id _
  have hdistinct : registry.resources.Nodup := (FirstMentions.eraseDups _).once
  rw [loadNoting_eq, Table.get?_eq_some_iff, Table.entries_ofList_of_nodup (by rwa [hkeys])]
  exact List.mem_map_of_mem h

theorem mem_resources_of_mem_entries {registry : Registry} {classification resource : String}
    (h : (classification, resource) ∈ registry.entries) : resource ∈ registry.resources := by
  rw [Registry.resources, List.mem_eraseDups]
  exact List.mem_map.mpr ⟨_, h, rfl⟩

theorem plainLookup_find (classification : String) :
    PlainLookup source registry classification
      ((loadNoting source registry).1.find classification) := by
  rw [Library.find, registry_loadNoting]
  cases hheld : registry.resource? classification with
  | none => exact .unregistered (Table.get?_eq_none_iff.mp hheld)
  | some resource =>
      have hlisted : (classification, resource) ∈ registry.entries :=
        Table.get?_eq_some_iff.mp hheld
      have htext := get?_texts_loadNoting source registry (mem_resources_of_mem_entries hlisted)
      dsimp only
      rw [htext]
      cases hsource : source resource with
      | none => exact .missing hlisted hsource
      | some text => exact .present hlisted hsource

/-- Loading from texts at hand leaves the same library as asking for them one by one. -/
theorem ofSource_eq : Library.ofSource source registry = (loadNoting source registry).1 := by
  rw [loadNoting_eq, Library.ofSource, load_eq_mapM]
  simp only [pure_bind, List.mapM_pure]
  rfl

theorem find_ofSource (classification : String) :
    (Library.ofSource source registry).find classification =
      match registry.resource? classification with
      | none => .unregistered
      | some resource =>
        match source resource with
        | none => .missing resource
        | some text => .present text := by
  rw [ofSource_eq, Library.find, registry_loadNoting]
  cases hheld : registry.resource? classification with
  | none => rfl
  | some resource =>
      have hlisted : (classification, resource) ∈ registry.entries :=
        Table.get?_eq_some_iff.mp hheld
      dsimp only
      rw [get?_texts_loadNoting source registry (mem_resources_of_mem_entries hlisted)]
      cases source resource <;> rfl

end

/-- A library that is loaded from a source has asked it for each registered resource once, in the
order in which the registrations first mention them, and for nothing else.  From then on it says of
every classification what the source and the registry would say, it lists as gaps just the
registrations whose template is missing, in the order of the registry, and it says the same of
classifications with the same resource. -/
theorem load_agrees_with_source (source : String → Option String) (registry : Registry) :
    FirstMentions (loadNoting source registry).2 (registry.entries.map Prod.snd) ∧
      (∀ classification,
        PlainLookup source registry classification
          ((loadNoting source registry).1.find classification)) ∧
      ((loadNoting source registry).1.gaps =
        registry.entries.filter fun (classification, resource) =>
          (loadNoting source registry).1.find classification = .missing resource) ∧
      ∀ classification other resource,
        (classification, resource) ∈ registry.entries → (other, resource) ∈ registry.entries →
          (loadNoting source registry).1.find classification =
            (loadNoting source registry).1.find other := by
  refine ⟨?_, plainLookup_find source registry, ?_, ?_⟩
  · rw [loadNoting_eq]
    exact .eraseDups _
  · rw [Library.gaps_eq, registry_loadNoting]
  · intro classification other resource hlisted hother
    have hregistry := registry_loadNoting source registry
    exact Library.find_eq_of_mem_entries (by rwa [hregistry]) (by rwa [hregistry])

/-! ## A registry that shares a resource -/

/-- Two classifications with one resource, one with an empty template and one without a template. -/
def sharedRegistry : Registry :=
  .ofList [("Class", "type.tmpl"), ("Enum", "enum.tmpl"), ("Struct", "type.tmpl"),
    ("Field", "field.tmpl")]

def sharedSource : String → Option String
  | "type.tmpl" => some "type \x7bName\x7d"
  | "enum.tmpl" => some ""
  | _ => none

theorem load_sharedRegistry :
    (loadNoting sharedSource sharedRegistry).2 = ["type.tmpl", "enum.tmpl", "field.tmpl"] ∧
      (loadNoting sharedSource sharedRegistry).1.find "Struct" =
        (loadNoting sharedSource sharedRegistry).1.find "Class" ∧
      (loadNoting sharedSource sharedRegistry).1.find "Enum" = .present "" ∧
      (loadNoting sharedSource sharedRegistry).1.gaps = [("Field", "field.tmpl")] := by
  obtain ⟨-, -, hgaps, hshared⟩ := load_agrees_with_source sharedSource sharedRegistry
  refine ⟨by decide, ?_, by decide, ?_⟩
  · exact hshared "Struct" "Class" "type.tmpl" (by decide) (by decide)
  · rw [hgaps]
    decide

end TreeGen.Template
