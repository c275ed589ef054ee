import TreeGen.Proofs.Files.Results
import TreeGen.Proofs.Workspace.Reading

/-!
# Configurations that are in use

A text that describes a configuration is refused exactly when the configuration breaks a rule, and
the error names the first rule that it breaks: the depth limit comes first, then the registrations
one by one.

Besides a text and a file there is a third origin of configurations: a file that does not exist
stands for the default one, which is never validated.  It keeps the rules anyway, and so do the
built-in registrations that a workspace starts from.  Hence whatever a workspace is loaded from, its
limit is positive and its registry has no empty entry.
-/

namespace TreeGen

open Text (Span)

namespace Config

/-! ## The rules -/

/-- A registration that names a classification and a resource. -/
structure IsComplete (registration : String × String) : Prop where
  classification : registration.1 ≠ ""
  resource : registration.2 ≠ ""

/-- A configuration that makes sense. -/
structure IsValid (config : Config) : Prop where
  maxDepth : 1 ≤ config.settings.maxDepth
  registrations : ∀ registration ∈ config.registrations, IsComplete registration

/-- What is wrong with a registration.  One of nothing at all lacks its classification. -/
inductive Breaks : String × String → Violation → Prop where
  | emptyClassification {resource : String} : Breaks ("", resource) .emptyClassification
  | emptyResource {classification : String} (named : classification ≠ "") :
      Breaks (classification, "") (.emptyResource classification)

/-- The rule that a configuration breaks first: the limit comes before the registrations, and of
those the first that is not complete decides. -/
inductive BreaksFirst (config : Config) : Violation → Prop where
  | zeroDepth (maxDepth : config.settings.maxDepth = 0) : BreaksFirst config .zeroDepth
  | registration {before after : List (String × String)} {registration : String × String}
      {violation : Violation}
      (maxDepth : 1 ≤ config.settings.maxDepth)
      (split : config.registrations = before ++ registration :: after)
      (earlier : ∀ other ∈ before, IsComplete other)
      (breaks : Breaks registration violation) :
      BreaksFirst config violation

/-! ## Validation decides the rules -/

theorem registrationViolation?_eq_none_iff {registration : String × String} :
    registrationViolation? registration = none ↔ IsComplete registration := by
  obtain ⟨classification, resource⟩ := registration
  rw [registrationViolation?]
  constructor
  · intro h
    split at h
    · cases h
    · rename_i hclassification
      split at h
      · cases h
      · rename_i hresource
        exact ⟨hclassification, hresource⟩
  · rintro ⟨hclassification, hresource⟩
    rw [if_neg hclassification, if_neg hresource]

theorem registrationViolation?_eq_some_iff
    {registration : String × String} {violation : Violation} :
    registrationViolation? registration = some violation ↔ Breaks registration violation := by
  obtain ⟨classification, resource⟩ := registration
  rw [registrationViolation?]
  constructor
  · intro h
    split at h
    · rename_i hclassification
      cases h
      subst hclassification
      exact .emptyClassification
    · rename_i hclassification
      split at h
      · rename_i hresource
        cases h
        subst hresource
        exact .emptyResource hclassification
      · cases h
  · intro h
    cases h with
    | emptyClassification => rw [if_pos rfl]
    | emptyResource hnamed => rw [if_neg hnamed, if_pos rfl]

theorem findSome?_registrations_eq_some_iff
    {registrations : List (String × String)} {violation : Violation} :
    registrations.findSome? registrationViolation? = some violation ↔
      ∃ before registration after, registrations = before ++ registration :: after ∧
        Breaks registration violation ∧ ∀ other ∈ before, IsComplete other := by
  simp only [List.findSome?_eq_some_iff, registrationViolation?_eq_some_iff,
    registrationViolation?_eq_none_iff]

variable {config : Config} {violation : Violation}

theorem violation?_eq_none_iff : config.violation? = none ↔ config.IsValid := by
  rw [violation?]
  constructor
  · intro h
    split at h
    · cases h
    · rename_i hdepth
      refine ⟨Nat.one_le_iff_ne_zero.mpr hdepth, ?_⟩
      intro registration hmem
      exact registrationViolation?_eq_none_iff.mp (List.findSome?_eq_none_iff.mp h _ hmem)
  · rintro ⟨hdepth, hregistrations⟩
    rw [if_neg (Nat.one_le_iff_ne_zero.mp hdepth), List.findSome?_eq_none_iff]
    intro registration hmem
    exact registrationViolation?_eq_none_iff.mpr (hregistrations registration hmem)

theorem violation?_eq_some_iff :
    config.violation? = some violation ↔ config.BreaksFirst violation := by
  rw [violation?]
  constructor
  · intro h
    split at h
    · rename_i hdepth
      cases h
      exact .zeroDepth hdepth
    · rename_i hdepth
      obtain ⟨before, registration, after, hsplit, hbreaks, hearlier⟩ :=
        findSome?_registrations_eq_some_iff.mp h
      exact .registration (Nat.one_le_iff_ne_zero.mpr hdepth) hsplit hearlier hbreaks
  · intro h
    cases h with
    | zeroDepth hdepth => rw [if_pos hdepth]
    | registration hdepth hsplit hearlier hbreaks =>
        rw [if_neg (Nat.one_le_iff_ne_zero.mp hdepth), findSome?_registrations_eq_some_iff]
        exact ⟨_, _, _, hsplit, hbreaks, hearlier⟩

/-! ## Reading a text -/

section

variable {text : String}

theorem read_eq_ok_iff {accepted : Config} :
    read text = .ok accepted ↔ ofText? text = some accepted ∧ accepted.IsValid := by
  rw [← violation?_eq_none_iff, read]
  constructor
  · intro h
    split at h
    · cases h
    · rename_i config hconfig
      split at h
      · cases h
      · rename_i hvalid
        cases h
        exact ⟨hconfig, hvalid⟩
  · rintro ⟨hconfig, hvalid⟩
    simp only [hconfig, hvalid]

theorem read_eq_error_iff {error : InputError} (hconfig : ofText? text = some config) :
    read text = .error error ↔
      ∃ violation, config.BreaksFirst violation ∧ error = violation.toInputError text := by
  simp only [← violation?_eq_some_iff, read, hconfig]
  cases config.violation? with
  | none => simp
  | some violation => simp [eq_comm]

end

theorem isValid_default : default.IsValid where
  maxDepth := by decide
  registrations := List.forall_mem_nil _

end Config

/-! ## Configurations of files and of workspaces -/

section

variable {m : Type → Type} [Monad m] [LawfulMonad m] [ReadsFiles m]

theorem LocatedConfig.always_isValid_load (path : String) :
    Always (fun result : Except InputError LocatedConfig =>
      ∀ located, result = .ok located → located.config.IsValid) (load path : m _) := by
  apply (always_true (ReadsFiles.readText? path)).bind
  rintro found -
  cases found with
  | none =>
      apply always_pure
      rintro located ⟨⟩
  | some text =>
      apply always_pure
      intro located hlocated
      cases hread : Config.read text with
      | error error =>
          rw [hread] at hlocated
          cases hlocated
      | ok config =>
          rw [hread] at hlocated
          cases hlocated
          exact (Config.read_eq_ok_iff.mp hread).2

theorem LocatedConfig.always_isValid_loadOrDefault (path : String) :
    Always (fun result : Except InputError LocatedConfig =>
      ∀ located, result = .ok located → located.config.IsValid) (loadOrDefault path : m _) := by
  apply (always_true (ReadsFiles.fileExists path)).bind
  rintro found -
  cases found with
  | true => exact always_isValid_load path
  | false =>
      apply always_pure
      rintro located ⟨⟩
      exact Config.isValid_default

end

namespace Workspace

open Template

theorem isComplete_of_mem_builtin :
    ∀ registration ∈ Registry.builtin.entries, Config.IsComplete registration := by
  have hentries : Registry.builtin.entries =
      [("Class", "class-template.tmpl"), ("Property", "property-template.tmpl")] := by
    decide
  rw [hentries, List.forall_mem_cons, List.forall_mem_singleton]
  exact ⟨⟨by decide, by decide⟩, ⟨by decide, by decide⟩⟩

/-- What is registered is built in or configured. -/
theorem isComplete_of_mem_registry
    {workspace : Workspace} (h : workspace.located.config.IsValid) :
    ∀ registration ∈ workspace.registry.entries, Config.IsComplete registration := by
  intro registration hmem
  rcases Table.mem_of_mem_insertMany hmem with hbuiltin | hconfigured
  · exact isComplete_of_mem_builtin registration hbuiltin
  · exact h.registrations registration hconfigured

variable {m : Type → Type} [Monad m] [LawfulMonad m] [ReadsFiles m]

theorem always_isValid_load (options : WorkspaceOptions) :
    Always (fun result : Except InputError Workspace =>
      ∀ workspace, result = .ok workspace → workspace.located.config.IsValid)
      (load options : m _) := by
  apply (LocatedConfig.always_isValid_loadOrDefault options.config).bind
  intro result hvalid
  cases result with
  | error error =>
      apply always_pure
      rintro workspace ⟨⟩
  | ok located =>
      apply always_pure
      rintro workspace ⟨⟩
      exact hvalid located rfl

end Workspace

/-! ## All configurations -/

/-- A text that describes a configuration is read as just that configuration if it is valid, and is
otherwise refused for the rule that it breaks first.  Every configuration that was opened, or stands
for a missing file, is valid, and a workspace has a positive limit and a registry without empty
classifications or resources, whatever files there are and however they change meanwhile. -/
theorem configurations_are_valid :
    (∀ (text : String) (config : Config), Config.ofText? text = some config →
      (∀ accepted, Config.read text = .ok accepted ↔ accepted = config ∧ config.IsValid) ∧
      (∀ error, Config.read text = .error error ↔
        ∃ violation, config.BreaksFirst violation ∧ error = violation.toInputError text)) ∧
    ∀ (m : Type → Type) [Monad m] [LawfulMonad m] [ReadsFiles m],
      (∀ path : String,
        Always (fun result : Except InputError LocatedConfig =>
          ∀ located, result = .ok located → located.config.IsValid)
          (LocatedConfig.load path : m _)) ∧
      (∀ path : String,
        Always (fun result : Except InputError LocatedConfig =>
          ∀ located, result = .ok located → located.config.IsValid)
          (LocatedConfig.loadOrDefault path : m _)) ∧
      ∀ options : WorkspaceOptions,
        Always (fun result : Except InputError Workspace =>
          ∀ workspace, result = .ok workspace → 1 ≤ workspace.maxDepth ∧
            ∀ registration ∈ workspace.registry.entries, Config.IsComplete registration)
          (Workspace.load options : m _) := by
  constructor
  · intro text config hconfig
    refine ⟨?_, fun error => Config.read_eq_error_iff hconfig⟩
    intro accepted
    rw [Config.read_eq_ok_iff, hconfig, Option.some.injEq]
    constructor
    · rintro ⟨rfl, hvalid⟩
      exact ⟨rfl, hvalid⟩
    · rintro ⟨rfl, hvalid⟩
      exact ⟨rfl, hvalid⟩
  · intro m _ _ _
    refine ⟨LocatedConfig.always_isValid_load, LocatedConfig.always_isValid_loadOrDefault, ?_⟩
    intro options
    apply (Workspace.always_isValid_load options).mono
    intro result hvalid workspace hworkspace
    have hlocated := hvalid workspace hworkspace
    exact ⟨hlocated.maxDepth, Workspace.isComplete_of_mem_registry hlocated⟩

/-! ## Texts that are refused and a file that is not -/

/-- A text that only registers is read as its registrations in their order. -/
theorem Config.ofText?_of_pairs
    {text : String} {pairs : List (String × String)}
    (h : (Toml.parse? text).map (fun entries => entries.map fun (key, value) =>
      (key, Config.pairs? value)) = some [("templates", some pairs)]) :
    Config.ofText? text = some ⟨{}, pairs.mergeSort fun a b => decide (a.1 ≤ b.1)⟩ := by
  obtain ⟨entries, hparse, hentries⟩ := Option.map_eq_some_iff.mp h
  obtain ⟨⟨key, value⟩, rfl, hentry⟩ := List.map_eq_singleton_iff.mp hentries
  obtain ⟨rfl, hpairs⟩ := Prod.mk.inj hentry
  rw [Config.ofText?, hparse]
  simp only [Option.bind_eq_bind, Option.bind_some, List.foldlM_cons, List.foldlM_nil,
    Config.extend?, Config.registrations?, hpairs, Option.map_some]
  rfl

/-- A resource is empty and the limit is zero; the limit is looked at first, wherever it stands. -/
def twiceBrokenText : String := "[templates]\nEnum=''\n[generator]\nmax_depth=0"

/-- Two resources are empty, and a classification between them. -/
def namelessText : String := "[templates]\nZone=''\n''='e'\nEnum=''"

/-- Two resources are empty, and the one that is written later comes first. -/
def resourcelessText : String := "[templates]\nZone=''\nA='a'\nEnum=''"

theorem ofText?_namelessText :
    Config.ofText? namelessText = some ⟨{}, [("", "e"), ("Enum", ""), ("Zone", "")]⟩ := by
  have hpairs : (Toml.parse? namelessText).map (fun entries => entries.map fun (key, value) =>
      (key, Config.pairs? value)) =
        some [("templates", some [("Zone", ""), ("", "e"), ("Enum", "")])] := by
    decide +kernel
  rw [Config.ofText?_of_pairs hpairs]
  simp [List.mergeSort, List.MergeSort.Internal.splitInTwo]

theorem ofText?_resourcelessText :
    Config.ofText? resourcelessText = some ⟨{}, [("A", "a"), ("Enum", ""), ("Zone", "")]⟩ := by
  have hpairs : (Toml.parse? resourcelessText).map (fun entries => entries.map fun (key, value) =>
      (key, Config.pairs? value)) =
        some [("templates", some [("Zone", ""), ("A", "a"), ("Enum", "")])] := by
    decide +kernel
  rw [Config.ofText?_of_pairs hpairs]
  simp [List.mergeSort, List.MergeSort.Internal.splitInTwo]

/-- Three levels, and another resource for a built-in classification. -/
def overridingText : String := "[templates]\nClass='c'\n[generator]\nmax_depth=3"

def overridingFiles : Files.Tree :=
  .ofList [(⟨.above 0, ["tessera.toml"]⟩, .text overridingText)]

def overridingWorkspace : Workspace :=
  ⟨⟨"tessera.toml", ⟨{ maxDepth := 3 }, [("Class", "c")]⟩⟩, "./context.json", "./templates"⟩

theorem ofText?_overridingText :
    Config.ofText? overridingText = some overridingWorkspace.located.config := by
  decide +kernel

theorem load_overridingWorkspace :
    (overridingFiles.execute (Workspace.load {})).1 = .ok overridingWorkspace := by
  have hfound : (overridingFiles.find? Config.defaultFilename).isSome := by
    with_unfolding_all rfl
  have htext : overridingFiles.text? Config.defaultFilename = some overridingText := by
    with_unfolding_all rfl
  have hread : Config.read overridingText = .ok overridingWorkspace.located.config :=
    Config.read_eq_ok_iff.mpr ⟨ofText?_overridingText, Config.violation?_eq_none_iff.mp rfl⟩
  have hlocated : (overridingFiles.execute (LocatedConfig.loadOrDefault Config.defaultFilename)).1 =
      .ok overridingWorkspace.located := by
    rw [LocatedConfig.execute_loadOrDefault, if_pos hfound, htext]
    dsimp only
    rw [hread]
    rfl
  rw [Workspace.execute_load]
  dsimp only
  rw [hlocated]
  rfl

theorem configurations_are_valid_of_overridingText :
    Config.read twiceBrokenText =
        .error (.invalid "`max_depth` must be at least 1" (some ⟨32, 9⟩)) ∧
      Config.read namelessText = .error (.invalid "classification must not be empty" none) ∧
      Config.read resourcelessText =
        .error (.invalid "template resource for 'Enum' must not be empty" (some ⟨26, 4⟩)) ∧
      Config.read overridingText = .ok overridingWorkspace.located.config ∧
      (overridingFiles.execute (Workspace.load {})).1 = .ok overridingWorkspace ∧
      1 ≤ overridingWorkspace.maxDepth ∧
      ∀ registration ∈ overridingWorkspace.registry.entries, Config.IsComplete registration := by
  obtain ⟨hread, hload⟩ := configurations_are_valid
  have htwice : Config.ofText? twiceBrokenText = some ⟨{ maxDepth := 0 }, [("Enum", "")]⟩ := by
    decide +kernel
  refine ⟨?_, ?_, ?_, ?_, load_overridingWorkspace, ?_⟩
  · exact ((hread _ _ htwice).2 _).mpr ⟨.zeroDepth, .zeroDepth rfl, by decide +kernel⟩
  · have hfirst : Config.BreaksFirst ⟨{}, [("", "e"), ("Enum", ""), ("Zone", "")]⟩
        .emptyClassification :=
      .registration (by decide) (List.nil_append _).symm (List.forall_mem_nil _)
        .emptyClassification
    exact ((hread _ _ ofText?_namelessText).2 _).mpr ⟨_, hfirst, rfl⟩
  · have hearlier : ∀ other ∈ [("A", "a")], Config.IsComplete other := by
      rw [List.forall_mem_singleton]
      exact ⟨by decide, by decide⟩
    have hfirst : Config.BreaksFirst ⟨{}, [("A", "a"), ("Enum", ""), ("Zone", "")]⟩
        (.emptyResource "Enum") :=
      .registration (by decide) (List.singleton_append).symm hearlier (.emptyResource (by decide))
    exact ((hread _ _ ofText?_resourcelessText).2 _).mpr ⟨_, hfirst, by decide +kernel⟩
  · exact ((hread _ _ ofText?_overridingText).1 _).mpr ⟨rfl, Config.violation?_eq_none_iff.mp rfl⟩
  · obtain ⟨-, -, halways⟩ := hload (StateM Files.Tree)
    exact Files.Tree.execute_of_always (halways {}) overridingFiles _ load_overridingWorkspace

end TreeGen
