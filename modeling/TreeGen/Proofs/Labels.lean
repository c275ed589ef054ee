import TreeGen.Config
import TreeGen.Proofs.Json.Nesting.Characters
import TreeGen.Proofs.Text.Span
import TreeGen.Proofs.TypeTree.Acceptance
import TreeGen.Proofs.TypeTree.Faults

/-!
# What the labels of errors point to

The label of an error comes from one of three searches in the text: the scan of the brackets, which
counts bytes, and the searches for the name of a node and for the key of a setting, which compare
characters.  Each gives a stretch of the text between two characters, and the stretch covers what
the error is about: one bracket, the quoted name, or the key.

A name is searched for as it was read, not as it was written.  A name that was written with escapes
or between single quotes may therefore occur elsewhere first or not at all, and in the second case
there is no label.
-/

namespace TreeGen

open Text (Span)

namespace TypeTree

/-! ## The bracket -/

/-- The scan stops at an opening bracket, in any text. -/
theorem covers_bracket_of_firstExcess?
    {text : String} {limit offset : Nat}
    (h : Json.Nesting.firstExcess? text limit = some offset) :
    Span.Covers ⟨offset, 1⟩ text "[" ∨ Span.Covers ⟨offset, 1⟩ text "\x7b" := by
  rw [Json.Nesting.firstExcess?_eq] at h
  obtain ⟨rest, hexcess, hoffset⟩ := Option.map_eq_some_iff.mp h
  obtain ⟨⟨front, hfront⟩, c, tail, rfl, hbracket⟩ :=
    Json.Nesting.Characters.exists_bracket_of_excess? hexcess
  rw [← hfront, Text.byteLength_append, Nat.add_sub_cancel] at hoffset
  rcases hbracket with rfl | rfl
  · exact .inl (Span.covers_iff.mpr ⟨front, tail, hfront.symm, by rw [← hoffset]; rfl⟩)
  · exact .inr (Span.covers_iff.mpr ⟨front, tail, hfront.symm, by rw [← hoffset]; rfl⟩)

/-! ## The name -/

/-- The string that counts as the name of a value. -/
def effectiveName? : Json → Option String
  | .object members =>
    match Field.name.value? members with
    | some (.string name) => some name
    | _ => none
  | _ => none

def Violation.field? : Violation → Option Field
  | .notArray _ | .notObject _ => none
  | .notString field _ | .missing field => some field
  | .childrenNotArray _ => some .children

/-- The name is the first field to be checked, so it is known once any other is at fault. -/
def Violation.PrecedesName (violation : Violation) : Prop :=
  violation.field? = none ∨ violation.field? = some .name

def KnownName (value : Json) (violation : Violation) : Option String → Prop
  | none => violation.PrecedesName ∧ effectiveName? value = none
  | some name => ¬ violation.PrecedesName ∧ effectiveName? value = some name

section

variable {field : Field} {members : List (String × Json)} {violation : Violation}

theorem field?_of_textField? (h : textField? field members = .error violation) :
    violation.field? = some field := by
  unfold textField? at h
  split at h <;> cases h
  rfl

theorem field?_of_textField (h : textField field members = .error violation) :
    violation.field? = some field := by
  unfold textField at h
  split at h
  · rename_i hviolation
    cases h
    exact field?_of_textField? hviolation
  · cases h
    rfl
  · cases h

theorem field?_of_childValues (h : childValues members = .error violation) :
    violation.field? = some .children := by
  unfold childValues at h
  split at h <;> cases h
  rfl

theorem effectiveName?_object_eq_some_iff (name : String) :
    effectiveName? (.object members) = some name ↔ textField .name members = .ok name := by
  rw [textField_eq_ok_iff, effectiveName?]
  split
  · rename_i found hfound
    rw [hfound]
    simp
  · rename_i hother
    simp only [reduceCtorEq, false_iff]
    exact hother name

theorem knownName_none_of_textField (h : textField .name members = .error violation) :
    KnownName (.object members) violation none := by
  refine ⟨.inr (field?_of_textField h), Option.eq_none_iff_forall_ne_some.mpr ?_⟩
  intro name hname
  rw [effectiveName?_object_eq_some_iff, h] at hname
  cases hname

theorem knownName_some_of_textField
    {name : String} (h : textField .name members = .ok name)
    (hviolation : violation.field? = some field) (hfield : field ≠ .name) :
    KnownName (.object members) violation (some name) := by
  refine ⟨?_, (effectiveName?_object_eq_some_iff name).mpr h⟩
  rw [Violation.PrecedesName, hviolation]
  simpa using hfield

end

theorem knownName_of_ownFields
    {value : Json} {complaint : Complaint} (h : ownFields value = .error complaint) :
    KnownName value complaint.violation complaint.name := by
  cases value with
  | object members =>
      rw [ownFields, ownFieldsOfMembers] at h
      split at h
      · rename_i hname
        cases h
        exact knownName_none_of_textField hname
      · -- Whatever is found wrong from here on is wrong with another field.
        rename_i name hname
        split at h
        · rename_i hclassification
          cases h
          exact knownName_some_of_textField hname (field?_of_textField hclassification) (by decide)
        · split at h
          · rename_i htype
            cases h
            exact knownName_some_of_textField hname (field?_of_textField? htype) (by decide)
          · split at h
            · rename_i hchildren
              cases h
              exact knownName_some_of_textField hname (field?_of_childValues hchildren) (by decide)
            · cases h
  | _ =>
      cases h
      exact ⟨.inl rfl, rfl⟩

/-- What the label of an error about a value points to. -/
inductive ShowsName (text : String) (value : Json) (violation : Violation) :
    Option Span → Prop where
  /-- The label covers the name between double quotes, where it first occurs like that. -/
  | shown {name : String} {span : Span} (hknown : KnownName value violation (some name))
      (hname : name ≠ "") (hspan : span.CoversFirst text ("\"" ++ name ++ "\"")) :
      ShowsName text value violation (some span)
  | unseen {name : String} (hknown : KnownName value violation (some name)) (hname : name ≠ "")
      (hspan : ∀ span : Span, ¬ span.Covers text ("\"" ++ name ++ "\"")) :
      ShowsName text value violation none
  | nameless (hknown : KnownName value violation (some "")) : ShowsName text value violation none
  /-- The value was refused before its name was read. -/
  | early (hknown : KnownName value violation none) : ShowsName text value violation none

theorem showsName_nameSpan?
    {value : Json} {violation : Violation} {name : Option String}
    (h : KnownName value violation name) (text : String) :
    ShowsName text value violation (nameSpan? text name) := by
  cases name with
  | none => exact .early h
  | some name =>
      rw [nameSpan?]
      split
      · rename_i hempty
        subst hempty
        exact .nameless h
      · rename_i hname
        cases hsearch : Span.ofFirst? ("\"" ++ name ++ "\"") text with
        | none => exact .unseen h hname (Span.ofFirst?_eq_none_iff.mp hsearch)
        | some span => exact .shown h hname (Span.ofFirst?_eq_some_iff.mp hsearch)

theorem ShowsName.liesIn
    {text : String} {value : Json} {violation : Violation} {span : Span}
    (h : ShowsName text value violation (some span)) : span.LiesIn text := by
  cases h with
  | shown _ _ hspan => exact hspan.covers.liesIn

/-! ## Errors about a type tree -/

/-- The place, the message and the label of an error about a document: a node and the first rule
that it breaks, or the document itself. -/
inductive ShowsFault (text : String) : Json → String → String → Option Span → Prop where
  | node {items : List Json} {path : NodePath} {value : Json} {violation : Violation}
      {label : Option Span} (hvalue : valueAt? items path = some value)
      (hfirst : firstViolation? value = some violation)
      (hname : ShowsName text value violation label) :
      ShowsFault text (.array items) path.text violation.message label
  /-- A document that is no array has no nodes, and no label. -/
  | document {document : Json} (harray : ∀ items, document ≠ .array items) :
      ShowsFault text document "$" (Violation.notArray document.kind).message none

theorem showsFault_of_readDocument
    {limit : Nat} {document : Json} {path : NodePath} {complaint : Complaint}
    (h : readDocument limit document = .error (.broken path complaint)) (text : String) :
    ShowsFault text document path.text complaint.violation.message
      (nameSpan? text complaint.name) := by
  cases document with
  | array items =>
      obtain ⟨index, steps, value, hvalue, hown, -⟩ := exists_ownFault?_of_readNodes h
      rcases cases_of_ownFault? hown with ⟨-, hdeep⟩ | ⟨-, complaint', hfields, hbroken⟩
      · cases hdeep
      · cases hbroken
        refine .node hvalue ?_ (showsName_nameSpan? (knownName_of_ownFields hfields) text)
        rw [firstViolation?_eq, hfields]
  | _ =>
      cases h
      exact .document (by rintro items ⟨⟩)

theorem ShowsFault.liesIn
    {text location message : String} {document : Json} {span : Span}
    (h : ShowsFault text document location message (some span)) : span.LiesIn text := by
  cases h with
  | node _ _ hname => exact hname.liesIn

/-- What the labels of an error about a type tree point to. -/
structure Points (source : Source) (limit : Nat) (error : InputError) : Prop where
  liesIn : ∀ label, error.label? = some label → label.span.LiesIn source.text
  /-- The scan is the first to refuse a text, and it gives a label. -/
  scan : ∀ offset, Json.Nesting.firstExcess? source.text (bracketLimit limit) = some offset →
    error = .tooDeep ("offset " ++ toString offset) limit (some ⟨offset, 1⟩)
  bracket : ∀ location bound span, error = .tooDeep location bound (some span) →
    span.length = 1 ∧ (span.Covers source.text "[" ∨ span.Covers source.text "\x7b") ∧
      location = "offset " ++ toString span.offset
  fault : ∀ location message label, error = .badNode location message label →
    ∃ document, Json.read source.text = .ok (some document) ∧
      ShowsFault source.text document location message label

section

variable {source : Source} {limit : Nat} {error : InputError}

theorem points_of_excess
    {offset : Nat}
    (hscan : Json.Nesting.firstExcess? source.text (bracketLimit limit) = some offset) :
    Points source limit (.tooDeep ("offset " ++ toString offset) limit (some ⟨offset, 1⟩)) := by
  have hcovers := covers_bracket_of_firstExcess? hscan
  refine ⟨?_, ?_, ?_, ?_⟩
  · rintro label ⟨⟩
    exact hcovers.elim Span.Covers.liesIn Span.Covers.liesIn
  · intro other hother
    rw [hscan] at hother
    cases hother
    rfl
  · rintro location bound span ⟨⟩
    exact ⟨rfl, hcovers, rfl⟩
  · rintro location message label ⟨⟩

variable (hscan : Json.Nesting.firstExcess? source.text (bracketLimit limit) = none)
include hscan

theorem points_of_shows
    {document : Json} {location message : String} {label : Option Span}
    (hvalue : Json.read source.text = .ok (some document))
    (hshows : ShowsFault source.text document location message label) :
    Points source limit (.badNode location message label) := by
  refine ⟨?_, ?_, ?_, ?_⟩
  · intro remark hremark
    obtain ⟨span, rfl, rfl⟩ := Option.map_eq_some_iff.mp hremark
    exact hshows.liesIn
  · intro offset hoffset
    rw [hscan] at hoffset
    cases hoffset
  · rintro location bound span ⟨⟩
  · rintro location message label ⟨⟩
    exact ⟨document, hvalue, hshows⟩

theorem points_of_silent
    (hlabel : error.label? = none)
    (hfault : ∀ location message label, error ≠ .badNode location message label) :
    Points source limit error := by
  refine ⟨?_, ?_, ?_, ?_⟩
  · intro label hsome
    rw [hlabel] at hsome
    cases hsome
  · intro offset hoffset
    rw [hscan] at hoffset
    cases hoffset
  · rintro location bound span rfl
    cases hlabel
  · intro location message label heq
    exact absurd heq (hfault location message label)

end

theorem points_of_read_eq_error
    {source : Source} {limit : Nat} {error : InputError} (h : read source limit = .error error) :
    Points source limit error := by
  cases refuses_of_read_eq_error h with
  | brackets hscan => exact points_of_excess hscan
  | malformed hscan => exact points_of_silent hscan rfl (by rintro _ _ _ ⟨⟩)
  | empty hscan => exact points_of_silent hscan rfl (by rintro _ _ _ ⟨⟩)
  | @document document fault hscan hvalue hfault =>
      cases fault with
      | tooDeep path => exact points_of_silent hscan rfl (by rintro _ _ _ ⟨⟩)
      | broken path complaint =>
          have hshows := showsFault_of_readDocument hfault source.text
          exact points_of_shows hscan hvalue hshows

end TypeTree

/-! ## Errors about a configuration -/

namespace Config

/-- What the label of an error about a configuration points to. -/
structure Points (text : String) (error : InputError) : Prop where
  liesIn : ∀ label, error.label? = some label → label.span.LiesIn text
  /-- The label covers the first occurrence of the key of the setting that is not allowed. -/
  key : ∀ message span, error = .invalid message (some span) →
    ∃ config, ofText? text = some config ∧
      ((config.settings.maxDepth = 0 ∧ message = "`max_depth` must be at least 1" ∧
          span.CoversFirst text "max_depth") ∨
        ∃ classification, classification ≠ "" ∧ (classification, "") ∈ config.registrations ∧
          message = "template resource for '" ++ classification ++ "' must not be empty" ∧
          span.CoversFirst text classification)

/-- A rule that has a key to search for is broken by the setting with that key. -/
theorem cases_of_violation?
    {config : Config} {violation : Violation} {key : String}
    (h : config.violation? = some violation) (hkey : violation.key? = some key) :
    (config.settings.maxDepth = 0 ∧ violation = .zeroDepth ∧ key = "max_depth") ∨
      (key ≠ "" ∧ (key, "") ∈ config.registrations ∧ violation = .emptyResource key) := by
  rw [violation?] at h
  split at h
  · rename_i hdepth
    cases h
    cases hkey
    exact .inl ⟨hdepth, rfl, rfl⟩
  · -- An empty classification has no key, so the one that is left has an empty resource.
    obtain ⟨⟨classification, resource⟩, hmem, hbroken⟩ := List.exists_of_findSome?_eq_some h
    rw [registrationViolation?] at hbroken
    split at hbroken
    · cases hbroken
      cases hkey
    · rename_i hclassification
      split at hbroken
      · rename_i hresource
        subst hresource
        cases hbroken
        cases hkey
        exact .inr ⟨hclassification, hmem, rfl⟩
      · cases hbroken

theorem points_of_read_eq_error
    {text : String} {error : InputError} (h : read text = .error error) : Points text error := by
  rw [read] at h
  split at h
  · cases h
    refine ⟨?_, ?_⟩
    · rintro label ⟨⟩
    · rintro message span ⟨⟩
  · rename_i config hconfig
    split at h
    · rename_i violation hviolation
      cases h
      refine ⟨?_, ?_⟩
      · intro label hlabel
        obtain ⟨span, hspan, rfl⟩ := Option.map_eq_some_iff.mp hlabel
        obtain ⟨key, -, hsearch⟩ := Option.bind_eq_some_iff.mp hspan
        exact (Span.covers_of_ofFirst? hsearch).liesIn
      · intro message span heq
        rw [Violation.toInputError, InputError.invalid.injEq] at heq
        obtain ⟨rfl, hspan⟩ := heq
        obtain ⟨key, hkey, hsearch⟩ := Option.bind_eq_some_iff.mp hspan
        have hcovers := Span.ofFirst?_eq_some_iff.mp hsearch
        refine ⟨config, hconfig, ?_⟩
        rcases cases_of_violation? hviolation hkey with
          ⟨hdepth, rfl, rfl⟩ | ⟨hname, hmem, rfl⟩
        · exact .inl ⟨hdepth, rfl, hcovers⟩
        · exact .inr ⟨key, hname, hmem, rfl, hcovers⟩
    · cases h

end Config

/-- Whatever text is refused as a type tree or as a configuration, and under whatever name and
limit, the labels of the error lie in the text and cover what the error is about. -/
theorem labels_point_to_what_they_name :
    (∀ (source : Source) (limit : Nat) (error : InputError),
      TypeTree.read source limit = .error error → TypeTree.Points source limit error) ∧
    ∀ (text : String) (error : InputError),
      Config.read text = .error error → Config.Points text error := by
  constructor
  · intro source limit error h
    exact TypeTree.points_of_read_eq_error h
  · intro text error h
    exact Config.points_of_read_eq_error h

/-! ## Three texts that are refused -/

/-- A node whose name takes two bytes and whose classification is no string. -/
def accentedText : String := "[\x7b\"Name\":\"é\",\"Classification\":[]\x7d]"

def accentedItems : List Json :=
  [.object [("Name", .string "é"), ("Classification", .array [])]]

/-- One bracket more than there may be without any levels, behind a comment. -/
def bracketText : String := "/*é*/[[[[[[[[[[[[[[[[["

def zeroDepthText : String := "[generator]\nmax_depth = 0"

set_option maxRecDepth 4000 in
theorem read_accentedText :
    TypeTree.read ⟨"context.json", accentedText⟩ 2 =
      .error (.badNode "[0]" "field `Classification` must be a string, found an array"
        (some ⟨9, 4⟩)) := by
  have hscan : Json.Nesting.firstExcess? accentedText (TypeTree.bracketLimit 2) = none := by
    decide +kernel
  have hvalue : Json.read accentedText = .ok (some (.array accentedItems)) := by
    with_unfolding_all rfl
  have hroots : TypeTree.readNodes 2 [] 0 accentedItems =
      .error (.broken [0] ⟨.notString .classification .array, some "é"⟩) := by
    with_unfolding_all rfl
  have hname : TypeTree.nameSpan? accentedText (some "é") = some ⟨9, 4⟩ := by
    decide +kernel
  simp only [TypeTree.read, hscan, hvalue, TypeTree.readDocument, hroots]
  rw [TypeTree.Fault.toInputError, hname]
  rfl

theorem read_bracketText :
    TypeTree.read ⟨"context.json", bracketText⟩ 0 =
      .error (.tooDeep "offset 22" 0 (some ⟨22, 1⟩)) := by
  have hscan : Json.Nesting.firstExcess? bracketText (TypeTree.bracketLimit 0) = some 22 := by
    decide +kernel
  simp only [TypeTree.read, hscan]
  rfl

theorem ofText?_zeroDepthText :
    Config.ofText? zeroDepthText = some ⟨{ maxDepth := 0 }, []⟩ := by
  decide +kernel

theorem read_zeroDepthText :
    Config.read zeroDepthText =
      .error (.invalid "`max_depth` must be at least 1" (some ⟨12, 9⟩)) := by
  have hkey : Span.ofFirst? "max_depth" zeroDepthText = some ⟨12, 9⟩ := by
    decide +kernel
  rw [Config.read, ofText?_zeroDepthText]
  simp only [Config.violation?, if_true, Config.Violation.toInputError, Config.Violation.key?,
    Option.bind_some, hkey]
  rfl

theorem labels_of_refused_texts :
    (TypeTree.read ⟨"context.json", accentedText⟩ 2 =
        .error (.badNode "[0]" "field `Classification` must be a string, found an array"
          (some ⟨9, 4⟩)) ∧
      Span.LiesIn ⟨9, 4⟩ accentedText ∧
      ∃ document, Json.read accentedText = .ok (some document) ∧
        TypeTree.ShowsFault accentedText document "[0]"
          "field `Classification` must be a string, found an array" (some ⟨9, 4⟩)) ∧
    (TypeTree.read ⟨"context.json", bracketText⟩ 0 =
        .error (.tooDeep "offset 22" 0 (some ⟨22, 1⟩)) ∧
      Span.LiesIn ⟨22, 1⟩ bracketText ∧
      (Span.Covers ⟨22, 1⟩ bracketText "[" ∨ Span.Covers ⟨22, 1⟩ bracketText "\x7b")) ∧
    Config.read zeroDepthText =
        .error (.invalid "`max_depth` must be at least 1" (some ⟨12, 9⟩)) ∧
      Span.LiesIn ⟨12, 9⟩ zeroDepthText ∧
      Span.CoversFirst ⟨12, 9⟩ zeroDepthText "max_depth" := by
  have haccented := labels_point_to_what_they_name.1 _ _ _ read_accentedText
  have hbracket := labels_point_to_what_they_name.1 _ _ _ read_bracketText
  have hzero := labels_point_to_what_they_name.2 _ _ read_zeroDepthText
  refine ⟨⟨read_accentedText, haccented.liesIn _ rfl, haccented.fault _ _ _ rfl⟩,
    ⟨read_bracketText, hbracket.liesIn _ rfl, (hbracket.bracket _ _ _ rfl).2.1⟩,
    read_zeroDepthText, hzero.liesIn _ rfl, ?_⟩
  obtain ⟨config, hconfig, hcovers⟩ := hzero.key _ _ rfl
  rw [ofText?_zeroDepthText] at hconfig
  cases hconfig
  rcases hcovers with ⟨-, -, hfirst⟩ | ⟨classification, -, hmem, -⟩
  · exact hfirst
  · cases hmem

end TreeGen
