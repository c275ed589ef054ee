import TreeGen.Proofs.Template.Library
import TreeGen.Proofs.Template.Skipped
import TreeGen.Proofs.Workspace.Passes

/-!
# The passes agree

Previewing, checking and listing each load the templates anew, and each says in its own way what is
amiss.  On the same files they speak of the same templates, so they agree: on the numbers, on the
warnings one by one, and on which classifications have a template.

Every notice is about a node that is skipped, and the listing has the classification of that node
either not at all or as not available; this is what ties the texts of the two other passes to the
listing.
-/

namespace TreeGen

open Files Template
open Node (preorderAll)

/-! ## What the texts say -/

/-- The texts of one warning, as a generation and as a check show it.  They name a classification
of a skipped node and its resource, and the listing has that classification once, with that
resource, as not available. -/
inductive WarnsOfUnavailable
    (listed : RegistrySummary) (roots : List Node) (generated checked : String) : Prop where
  | intro {placed : PlacedNode} {resource message : String}
      (mem : placed ∈ preorderAll [] roots)
      (message_eq : message =
        "template '" ++ resource ++ "' for classification '" ++ placed.node.classification
          ++ "' could not be loaded, node skipped")
      (generated_eq : generated = message ++ " (at " ++ placed.location ++ ")")
      (checked_eq : checked = message ++ " [template-unavailable]\n  --> " ++ placed.location)
      (registered : ⟨placed.node.classification, resource, false⟩ ∈ listed.registrations)
      (only : ∀ registration ∈ listed.registrations,
        registration.classification = placed.node.classification →
          registration = ⟨placed.node.classification, resource, false⟩)

/-- The text of a notice that is no warning, as a check shows it.  It names a classification of a
skipped node, and the listing does not have that classification. -/
inductive InformsOfUnlisted
    (listed : RegistrySummary) (roots : List Node) (checked : String) : Prop where
  | intro {placed : PlacedNode} {message : String}
      (mem : placed ∈ preorderAll [] roots)
      (message_eq : message =
        "no template registered for classification '" ++ placed.node.classification
          ++ "', node skipped")
      (checked_eq :
        checked = message ++ " [unrecognized-classification]\n  --> " ++ placed.location)
      (unlisted : ∀ registration ∈ listed.registrations,
        registration.classification ≠ placed.node.classification)

namespace Workspace

/-! ## Notices and the listing -/

theorem exists_reports_of_mem_notices
    {expander : Expander} {roots : List Node} {document : Document}
    (h : Document.ofRoots expander roots = .ok document)
    {notice : Notice} (hnotice : notice ∈ document.notices) :
    ∃ placed ∈ preorderAll [] roots, Reports expander.templates placed notice := by
  obtain ⟨text, raised, hexpands, rfl⟩ := Document.ofRoots_eq_ok_iff.mp h
  have hreports := hexpands.reports [] rfl (List.forall_mem_nil _)
  obtain ⟨hlength, hget⟩ := List.forall₂_iff_get.mp hreports
  obtain ⟨index, hindex, rfl⟩ := List.mem_iff_getElem.mp hnotice
  have hplaced := hlength ▸ hindex
  have hmem := List.getElem_mem hplaced
  exact ⟨_, (List.mem_filter.mp hmem).1, hget index hplaced hindex⟩

theorem checkMessage_eq
    {notice : Notice} {location : String} (h : notice.location = some location) :
    checkMessage notice =
      notice.message ++ (" [" ++ notice.topic.code ++ "]\n  --> ") ++ location := by
  have hbreak : "]\n  --> " = "]" ++ "\n  --> " := by
    decide
  rw [checkMessage, h, hbreak]
  simp only [String.append_assoc]

section

variable {workspace : Workspace} {files : Files.Tree} {classification resource : String}

theorem mem_registrationsIn_iff {registration : RegistrationSummary} :
    registration ∈ workspace.registrationsIn files ↔
      (registration.classification, registration.resource) ∈ workspace.registry.entries ∧
        registration.available =
          ((workspace.libraryIn files).find registration.classification).template?.isSome := by
  obtain ⟨classification, resource, available⟩ := registration
  simp [registrationsIn, eq_comm]

theorem unlisted_of_find_eq_unregistered
    (h : (workspace.libraryIn files).find classification = .unregistered) :
    ∀ registration ∈ workspace.registrationsIn files,
      registration.classification ≠ classification := by
  rintro registration hmem rfl
  have hkey := Library.find_eq_unregistered_iff.mp h
  exact hkey (List.mem_map.mpr ⟨_, (mem_registrationsIn_iff.mp hmem).1, rfl⟩)

theorem mem_registrationsIn_of_find_eq_missing
    (h : (workspace.libraryIn files).find classification = .missing resource) :
    ⟨classification, resource, false⟩ ∈ workspace.registrationsIn files := by
  rw [mem_registrationsIn_iff, h]
  exact ⟨(Library.find_eq_missing_iff.mp h).1, rfl⟩

theorem eq_of_mem_registrationsIn
    (h : (workspace.libraryIn files).find classification = .missing resource)
    {registration : RegistrationSummary} (hmem : registration ∈ workspace.registrationsIn files)
    (hclassification : registration.classification = classification) :
    registration = ⟨classification, resource, false⟩ := by
  obtain ⟨hentry, havailable⟩ := mem_registrationsIn_iff.mp hmem
  obtain ⟨name, held, available⟩ := registration
  obtain rfl : name = classification := hclassification
  have hlisted := (Library.find_eq_missing_iff.mp h).1
  obtain rfl : held = resource := Library.eq_of_mem_entries hlisted hentry
  rw [h] at havailable
  obtain rfl : available = false := havailable
  rfl

end

/-! ## The agreement -/

/-- On the same files, a check and a preview of a tree that was read both succeed and count the same
roots and nodes.  The skipped subtrees of the preview are as many as the notices of the check.  The
warnings of the two agree one by one, and each is about a classification that the listing has as not
available; the other notices are about classifications that it does not have. -/
theorem passes_agree
    (workspace : Workspace) (before files : Files.Tree) (tree : TreeFile) (dump : Bool)
    (h : (before.execute workspace.tree).1 = .ok tree) :
    ∃ (generated : GenerationSummary) (checked : CheckSummary) (listed : RegistrySummary),
      files.execute (workspace.preview tree) = (.ok generated, files) ∧
      files.execute (workspace.check tree dump) = (.ok checked, files) ∧
      files.execute workspace.listRegistry = (listed, files) ∧
      generated.rootCount = checked.rootCount ∧
      generated.nodeCount = checked.nodeCount ∧
      generated.skippedCount = checked.warnings.length + checked.infos.length ∧
      List.Forall₂ (WarnsOfUnavailable listed tree.roots)
        generated.warnings checked.warnings ∧
      ∀ info ∈ checked.infos, InformsOfUnlisted listed tree.roots info := by
  obtain ⟨document, hdocument, hexecute⟩ := exists_execute_document h files
  refine ⟨_, _, _, execute_preview_of_document hexecute,
    execute_check_of_document hexecute dump, execute_listRegistry files workspace, ?_, rfl, ?_, ?_,
    ?_⟩
  · obtain ⟨text, raised, -, rfl⟩ := Document.ofRoots_eq_ok_iff.mp hdocument
    rfl
  · rw [List.length_map, List.length_map]
    exact List.length_eq_length_filter_add _
  · rw [generationSummary, List.forall₂_map_left_iff, List.forall₂_map_right_iff,
      List.forall₂_same]
    intro notice hnotice
    obtain ⟨hmem, hwarning⟩ := List.mem_filter.mp hnotice
    obtain ⟨placed, hplaced, hreports⟩ := exists_reports_of_mem_notices hdocument hmem
    cases hreports with
    | unregistered found severity topic message location =>
        rw [severity] at hwarning
        cases hwarning
    | missing found severity topic message location =>
        refine .intro hplaced message ?_ ?_ (mem_registrationsIn_of_find_eq_missing found) ?_
        · rw [Notice.locatedMessage, location]
        · rw [checkMessage_eq location, topic]
          rfl
        · intro registration hregistration
          exact eq_of_mem_registrationsIn found hregistration
  · intro info hinfo
    obtain ⟨notice, hnotice, rfl⟩ := List.mem_map.mp hinfo
    obtain ⟨hmem, hwarning⟩ := List.mem_filter.mp hnotice
    obtain ⟨placed, hplaced, hreports⟩ := exists_reports_of_mem_notices hdocument hmem
    cases hreports with
    | missing found severity topic message location =>
        rw [severity] at hwarning
        cases hwarning
    | unregistered found severity topic message location =>
        refine .intro hplaced message ?_ (unlisted_of_find_eq_unregistered found)
        rw [checkMessage_eq location, topic]
        rfl

/-! ## A directory with one template -/

/-- A class whose property has no template on the disk, and a node without a registration. -/
def gappyRoots : List Node :=
  [⟨"Person", "Class", none, [⟨"Age", "Property", some "int", []⟩]⟩, .leaf "Color" "Enum"]

/-- The tree and the template of classes, and no other template. -/
def gappyFiles : Files.Tree :=
  .ofList
    [(⟨.above 0, ["context.json"]⟩, .text (Node.dump gappyRoots)),
      (⟨.above 0, ["templates"]⟩, .directory),
      (⟨.above 0, ["class-template.tmpl", "templates"]⟩,
        .text "class \x7bName\x7d \x7b \x7bChildren\x7d \x7d")]

def gappyWorkspace : Workspace :=
  ⟨⟨"tessera.toml", .default⟩, "./context.json", "./templates"⟩

def gappyTree : TreeFile :=
  ⟨"./context.json", Node.dump gappyRoots, gappyRoots⟩

theorem read_gappyRoots (filename : String) :
    TypeTree.read ⟨filename, Node.dump gappyRoots⟩ defaultMaxDepth = .ok gappyRoots :=
  TypeTree.read_print_toJsonAll Json.blank_indented filename (by decide) (by decide)

theorem tree_gappyWorkspace :
    gappyFiles.execute gappyWorkspace.tree = (.ok gappyTree, gappyFiles) := by
  have htext : gappyFiles.text? gappyWorkspace.input = some (Node.dump gappyRoots) := by
    with_unfolding_all rfl
  have hread : TypeTree.read ⟨gappyWorkspace.input, Node.dump gappyRoots⟩
      gappyWorkspace.maxDepth = .ok gappyRoots := read_gappyRoots "./context.json"
  rw [execute_tree, htext]
  dsimp only
  rw [hread]
  rfl

theorem passes_agree_on_gappyFiles :
    ∃ (generated : GenerationSummary) (checked : CheckSummary) (listed : RegistrySummary),
      gappyFiles.execute (gappyWorkspace.preview gappyTree) = (.ok generated, gappyFiles) ∧
      gappyFiles.execute (gappyWorkspace.check gappyTree false) = (.ok checked, gappyFiles) ∧
      gappyFiles.execute gappyWorkspace.listRegistry = (listed, gappyFiles) ∧
      (checked.rootCount, checked.nodeCount) = (2, 3) ∧
      (generated.rootCount, generated.nodeCount) = (2, 3) ∧
      generated.skippedCount = 2 ∧
      generated.warnings =
        ["template 'property-template.tmpl' for classification 'Property' could not be loaded, "
          ++ "node skipped (at Person.Age)"] ∧
      checked.infos =
        ["no template registered for classification 'Enum', node skipped "
          ++ "[unrecognized-classification]\n  --> Color"] ∧
      List.Forall₂ (WarnsOfUnavailable listed gappyRoots) generated.warnings checked.warnings ∧
      ∀ info ∈ checked.infos, InformsOfUnlisted listed gappyRoots info := by
  have htree : (gappyFiles.execute gappyWorkspace.tree).1 = .ok gappyTree := by
    rw [tree_gappyWorkspace]
  obtain ⟨generated, checked, listed, hgenerated, hchecked, hlisted, hroots, hnodes, hskipped,
    hwarnings, hinfos⟩ := passes_agree gappyWorkspace gappyFiles gappyFiles gappyTree false htree
  have hcounts : (checked.rootCount, checked.nodeCount) = (2, 3) := by
    cases hchecked
    with_unfolding_all rfl
  refine ⟨generated, checked, listed, hgenerated, hchecked, hlisted, hcounts, ?_, ?_, ?_, ?_,
    hwarnings, hinfos⟩
  · rw [hroots, hnodes, hcounts]
  · rw [hskipped]
    cases hchecked
    with_unfolding_all rfl
  · cases hgenerated
    with_unfolding_all rfl
  · cases hchecked
    with_unfolding_all rfl

end Workspace

end TreeGen
