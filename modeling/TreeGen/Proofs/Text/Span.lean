import TreeGen.Proofs.Text.Utf8

/-!
# Stretches of a text

A stretch covers a piece of a text when the text can be cut around that piece at its two ends.  Such
a stretch lies inside the text and begins and ends between two characters.  Searching for a piece
gives a stretch exactly when the piece occurs, and then the first one that covers it.
-/

namespace TreeGen.Text

/-! ## Searching -/

theorem eq_append_of_beforeFirst?
    {piece text before : List Char} (h : beforeFirst? piece text = some before) :
    ∃ rest, text = before ++ (piece ++ rest) := by
  induction text generalizing before with
  | nil =>
      rw [beforeFirst?] at h
      split at h
      · rename_i hempty
        rw [List.isEmpty_iff] at hempty
        cases h
        exact ⟨[], by rw [hempty]; rfl⟩
      · cases h
  | cons c text ih =>
      rw [beforeFirst?] at h
      split at h
      · rename_i hprefix
        cases h
        obtain ⟨rest, hrest⟩ := List.isPrefixOf_iff_prefix.mp hprefix
        exact ⟨rest, hrest.symm⟩
      · obtain ⟨before', hbefore', rfl⟩ := Option.map_eq_some_iff.mp h
        obtain ⟨rest, hrest⟩ := ih hbefore'
        exact ⟨rest, by rw [hrest, List.cons_append]⟩

theorem exists_beforeFirst?_of_eq_append
    {piece text front rest : List Char} (h : text = front ++ (piece ++ rest)) :
    ∃ before, beforeFirst? piece text = some before ∧ before <+: front := by
  induction text generalizing front with
  | nil =>
      have hnil := (List.append_eq_nil_iff.mp h.symm).2
      have hpiece : piece.isEmpty := List.isEmpty_iff.mpr (List.append_eq_nil_iff.mp hnil).1
      exact ⟨[], by rw [beforeFirst?, if_pos hpiece], List.nil_prefix⟩
  | cons c text ih =>
      by_cases hprefix : piece.isPrefixOf (c :: text)
      · exact ⟨[], by rw [beforeFirst?, if_pos hprefix], List.nil_prefix⟩
      · cases front with
        | nil => exact absurd (List.isPrefixOf_iff_prefix.mpr ⟨rest, h.symm⟩) hprefix
        | cons first front =>
            obtain ⟨rfl, htext⟩ := List.cons.inj h
            obtain ⟨before, hbefore, hfront⟩ := ih htext
            refine ⟨c :: before, ?_, List.cons_prefix_cons.mpr ⟨rfl, hfront⟩⟩
            rw [beforeFirst?, if_neg hprefix, hbefore, Option.map_some]

namespace Span

/-! ## What a stretch covers -/

/-- The stretch lies in the text and has its ends at character boundaries. -/
structure LiesIn (span : Span) (text : String) : Prop where
  end_le : span.offset + span.length ≤ text.utf8ByteSize
  start_isValid : (String.Pos.Raw.mk span.offset).IsValid text
  end_isValid : (String.Pos.Raw.mk (span.offset + span.length)).IsValid text

/-- What the stretch covers is this piece of the text. -/
def Covers (span : Span) (text piece : String) : Prop :=
  ∃ front rest, text = front ++ piece ++ rest ∧
    span = ⟨front.utf8ByteSize, piece.utf8ByteSize⟩

/-- The stretch covers the piece where it occurs first. -/
structure CoversFirst (span : Span) (text piece : String) : Prop where
  covers : span.Covers text piece
  first : ∀ other : Span, other.Covers text piece → span.offset ≤ other.offset

theorem covers_iff {span : Span} {text piece : String} :
    span.Covers text piece ↔
      ∃ front rest, text.toList = front ++ (piece.toList ++ rest) ∧
        span = ⟨byteLength front, byteLength piece.toList⟩ := by
  constructor
  · rintro ⟨front, rest, rfl, rfl⟩
    refine ⟨front.toList, rest.toList, ?_, ?_⟩
    · rw [String.toList_append, String.toList_append, List.append_assoc]
    · rw [utf8ByteSize_eq_byteLength, utf8ByteSize_eq_byteLength]
  · rintro ⟨front, rest, htext, rfl⟩
    refine ⟨String.ofList front, String.ofList rest, ?_, ?_⟩
    · rw [← String.toList_inj, htext, String.toList_append, String.toList_append,
        String.toList_ofList, String.toList_ofList, List.append_assoc]
    · rw [utf8ByteSize_eq_byteLength, utf8ByteSize_eq_byteLength, String.toList_ofList]

theorem Covers.liesIn {span : Span} {text piece : String} (h : span.Covers text piece) :
    span.LiesIn text := by
  obtain ⟨front, rest, htext, rfl⟩ := covers_iff.mp h
  have hstart := isValid_of_toList_eq_append htext
  rw [← List.append_assoc] at htext
  have hend := isValid_of_toList_eq_append htext
  rw [byteLength_append] at hend
  refine ⟨?_, hstart, hend⟩
  rw [utf8ByteSize_eq_byteLength, htext, byteLength_append, byteLength_append]
  exact Nat.le_add_right _ _

theorem Covers.exists_ofFirst? {span : Span} {text piece : String} (h : span.Covers text piece) :
    ∃ found, ofFirst? piece text = some found ∧ found.offset ≤ span.offset ∧
      found.length = span.length := by
  obtain ⟨front, rest, htext, rfl⟩ := covers_iff.mp h
  obtain ⟨before, hbefore, ⟨between, rfl⟩⟩ := exists_beforeFirst?_of_eq_append htext
  refine ⟨⟨byteLength before, byteLength piece.toList⟩, ?_, ?_, rfl⟩
  · rw [ofFirst?, hbefore, Option.map_some]
  · rw [byteLength_append]
    exact Nat.le_add_right _ _

theorem covers_of_ofFirst? {span : Span} {text piece : String}
    (h : ofFirst? piece text = some span) : span.Covers text piece := by
  obtain ⟨before, hbefore, rfl⟩ := Option.map_eq_some_iff.mp h
  obtain ⟨rest, hrest⟩ := eq_append_of_beforeFirst? hbefore
  exact covers_iff.mpr ⟨before, rest, hrest, rfl⟩

/-- The search gives the stretch that covers the piece where it occurs first. -/
theorem ofFirst?_eq_some_iff {span : Span} {text piece : String} :
    ofFirst? piece text = some span ↔ span.CoversFirst text piece := by
  constructor
  · intro h
    refine ⟨covers_of_ofFirst? h, ?_⟩
    intro other hother
    obtain ⟨found, hfound, hle, -⟩ := hother.exists_ofFirst?
    rw [h, Option.some.injEq] at hfound
    rwa [hfound]
  · intro h
    obtain ⟨found, hfound, hle, hlength⟩ := h.covers.exists_ofFirst?
    have hge := h.first found (covers_of_ofFirst? hfound)
    obtain ⟨offset, length⟩ := span
    obtain ⟨offset', length'⟩ := found
    obtain rfl : offset' = offset := Nat.le_antisymm hle hge
    obtain rfl : length' = length := hlength
    exact hfound

theorem ofFirst?_eq_none_iff {text piece : String} :
    ofFirst? piece text = none ↔ ∀ span : Span, ¬ span.Covers text piece := by
  constructor
  · intro h span hcovers
    obtain ⟨found, hfound, -⟩ := hcovers.exists_ofFirst?
    rw [h] at hfound
    cases hfound
  · intro h
    rw [Option.eq_none_iff_forall_ne_some]
    intro span hspan
    exact h span (covers_of_ofFirst? hspan)

end Span

end TreeGen.Text
