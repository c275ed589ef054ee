import TreeGen.Template.Filling

/-!
# Filling as cutting and replacing

The active tokens of a template stand at certain offsets, and these depend on the template and on
which tokens have a value, not on the values.  Two tokens never overlap, because a brace opens every
token and occurs nowhere else in it.  So there is exactly one way to cut the template at all its
active tokens, and filling it in means to put the values between the literal pieces of that cut.

`Cut.IsComplete` says which cuts are meant without looking at any scan.
-/

namespace TreeGen.Template

/-! ## Tokens and where they stand -/

/-- A part of a template that may be replaced. -/
inductive Token where
  | name
  | type
  | children
deriving DecidableEq, Repr

namespace Token

def chars : Token → List Char
  | .name => nameToken
  | .type => typeToken
  | .children => childrenToken

/-- A brace opens a token and occurs nowhere else in it. -/
theorem exists_chars_eq_cons (token : Token) :
    ∃ word, token.chars = '{' :: word ∧ '{' ∉ word := by
  cases token with
  | name => exact ⟨"Name\x7d".toList, by decide, by decide⟩
  | type => exact ⟨"Type\x7d".toList, by decide, by decide⟩
  | children => exact ⟨"Children\x7d".toList, by decide, by decide⟩

theorem length_chars_pos (token : Token) : 0 < token.chars.length := by
  obtain ⟨word, hchars, -⟩ := token.exists_chars_eq_cons
  rw [hchars, List.length_cons]
  exact Nat.succ_pos _

theorem eq_of_isPrefix_chars {token other : Token} (h : token.chars <+: other.chars) :
    token = other := by
  revert h
  cases token <;> cases other <;> decide

theorem eq_of_isPrefix
    {token other : Token} {text : List Char}
    (h : token.chars <+: text) (h' : other.chars <+: text) :
    token = other := by
  rcases List.prefix_or_prefix_of_prefix h h' with hprefix | hprefix
  · exact eq_of_isPrefix_chars hprefix
  · exact (eq_of_isPrefix_chars hprefix).symm

/-- Behind the brace that opens it, a token does not meet another one. -/
theorem not_isPrefix_drop_of_lt
    {token other : Token} {offset : Nat} {text : List Char}
    (hpos : 0 < offset) (hlt : offset < token.chars.length) :
    ¬ other.chars <+: (token.chars ++ text).drop offset := by
  intro h
  obtain ⟨word, hchars, hword⟩ := token.exists_chars_eq_cons
  obtain ⟨word', hchars', -⟩ := other.exists_chars_eq_cons
  obtain ⟨before, rfl⟩ := Nat.exists_eq_add_one_of_ne_zero (Nat.ne_of_gt hpos)
  rw [hchars, List.length_cons, Nat.add_lt_add_iff_right] at hlt
  have hdrop : ((token.chars ++ text).drop (before + 1)).head? = some word[before] := by
    rw [hchars, List.cons_append, List.drop_succ_cons, List.head?_drop,
      List.getElem?_append_left hlt, List.getElem?_eq_getElem hlt]
  have hhead : ((token.chars ++ text).drop (before + 1)).head? = some '{' := by
    obtain ⟨rest, hrest⟩ := h
    rw [← hrest, hchars']
    rfl
  rw [hdrop, Option.some.injEq] at hhead
  exact hword (hhead ▸ List.getElem_mem hlt)

end Token

/-- An active token stands in the text, behind so many characters. -/
def Occurs
    (active : Token → Bool) (text : List Char) (offset : Nat) (token : Token) : Prop :=
  active token ∧ token.chars <+: text.drop offset

section

variable {active : Token → Bool} {text : List Char} {token other : Token}

theorem not_occurs_nil (offset : Nat) : ¬ Occurs active [] offset token := by
  rintro ⟨-, hprefix⟩
  have hlength := hprefix.length_le
  have hpos := token.length_chars_pos
  rw [List.drop_nil, List.length_nil] at hlength
  omega

theorem occurs_cons_succ_iff {c : Char} {offset : Nat} :
    Occurs active (c :: text) (offset + 1) token ↔ Occurs active text offset token :=
  Iff.rfl

/-- A token that starts a text is the only one that stands within its own length. -/
theorem occurs_append_iff_of_lt
    (hactive : active token) {offset : Nat} (hlt : offset < token.chars.length) :
    Occurs active (token.chars ++ text) offset other ↔ offset = 0 ∧ other = token := by
  constructor
  · rintro ⟨hother, hprefix⟩
    by_cases hzero : offset = 0
    · rw [hzero, List.drop_zero] at hprefix
      exact ⟨hzero, Token.eq_of_isPrefix hprefix (List.prefix_append _ _)⟩
    · exact absurd hprefix (Token.not_isPrefix_drop_of_lt (Nat.pos_of_ne_zero hzero) hlt)
  · rintro ⟨rfl, rfl⟩
    exact ⟨hactive, List.prefix_append _ _⟩

/-- Behind that token stand those of the rest of the text. -/
theorem occurs_append_add_iff (offset : Nat) :
    Occurs active (token.chars ++ text) (token.chars.length + offset) other ↔
      Occurs active text offset other := by
  rw [Occurs, List.drop_length_add_append, Occurs]

end

/-! ## Cuts -/

/-- A text cut at tokens: the literal text in front of them, and each token with the literal text
behind it. -/
structure Cut where
  lead : List Char
  pieces : List (Token × List Char)
deriving DecidableEq, Repr

namespace Cut

def text (cut : Cut) : List Char :=
  cut.lead ++ cut.pieces.flatMap fun (token, literal) => token.chars ++ literal

/-- The tokens of pieces that start at an offset, each with the offset where it stands. -/
def placedFrom (offset : Nat) : List (Token × List Char) → List (Nat × Token)
  | [] => []
  | (token, literal) :: rest =>
    (offset, token) :: placedFrom (offset + token.chars.length + literal.length) rest

def placed (cut : Cut) : List (Nat × Token) :=
  placedFrom cut.lead.length cut.pieces

/-- The cut is one of the text, and what is cut out are all active tokens that occur in it. -/
structure IsComplete (active : Token → Bool) (text : List Char) (cut : Cut) : Prop where
  text_eq : cut.text = text
  mem_placed_iff :
    ∀ offset token, (offset, token) ∈ cut.placed ↔ Occurs active text offset token

section

variable {lead literal : List Char} {c : Char} {token other : Token}
  {pieces : List (Token × List Char)}

theorem text_token :
    text ⟨[], (token, literal) :: pieces⟩ = token.chars ++ text ⟨literal, pieces⟩ := by
  rw [text, text, List.nil_append, List.flatMap_cons, List.append_assoc]

theorem mem_placedFrom_add_iff (shift start offset : Nat) :
    (shift + offset, token) ∈ placedFrom (shift + start) pieces ↔
      (offset, token) ∈ placedFrom start pieces := by
  induction pieces generalizing start with
  | nil => simp [placedFrom]
  | cons piece pieces ih =>
      obtain ⟨first, literal⟩ := piece
      rw [placedFrom, placedFrom, List.mem_cons, List.mem_cons, Nat.add_assoc, Nat.add_assoc, ih,
        Nat.add_assoc, Prod.mk.injEq, Prod.mk.injEq, Nat.add_left_cancel_iff]

theorem le_of_mem_placedFrom {start offset : Nat}
    (h : (offset, token) ∈ placedFrom start pieces) :
    start ≤ offset := by
  induction pieces generalizing start with
  | nil => exact absurd h List.not_mem_nil
  | cons piece pieces ih =>
      obtain ⟨first, literal⟩ := piece
      rw [placedFrom, List.mem_cons, Prod.mk.injEq] at h
      rcases h with ⟨rfl, -⟩ | h
      · exact Nat.le_refl _
      · have hle := ih h
        omega

theorem mem_placed_cons_iff (offset : Nat) :
    (offset + 1, token) ∈ placed ⟨c :: lead, pieces⟩ ↔
      (offset, token) ∈ placed ⟨lead, pieces⟩ := by
  rw [placed, List.length_cons, Nat.add_comm offset, Nat.add_comm lead.length,
    mem_placedFrom_add_iff, placed]

theorem mem_placed_token_iff_of_lt {offset : Nat} (hlt : offset < token.chars.length) :
    (offset, other) ∈ placed ⟨[], (token, literal) :: pieces⟩ ↔ offset = 0 ∧ other = token := by
  rw [placed, placedFrom, List.mem_cons, Prod.mk.injEq]
  refine or_iff_left ?_
  intro hmem
  have hle := le_of_mem_placedFrom hmem
  rw [List.length_nil] at hle
  omega

theorem mem_placed_token_add_iff (offset : Nat) :
    (token.chars.length + offset, other) ∈ placed ⟨[], (token, literal) :: pieces⟩ ↔
      (offset, other) ∈ placed ⟨literal, pieces⟩ := by
  have hpos := token.length_chars_pos
  rw [placed, placedFrom, List.mem_cons, Prod.mk.injEq, List.length_nil, Nat.zero_add,
    mem_placedFrom_add_iff, placed]
  refine or_iff_right ?_
  rintro ⟨hzero, -⟩
  omega

end

/-! ## Complete cuts, piece by piece -/

section

variable {active : Token → Bool} {text lead literal : List Char} {c : Char} {token : Token}
  {pieces : List (Token × List Char)}

theorem isComplete_nil : IsComplete active [] ⟨[], []⟩ := by
  refine ⟨rfl, ?_⟩
  intro offset token
  constructor
  · intro h
    exact absurd h List.not_mem_nil
  · intro h
    exact absurd h (not_occurs_nil offset)

/-- Literal text comes first in a complete cut exactly where no active token does. -/
theorem isComplete_cons_iff :
    IsComplete active (c :: text) ⟨c :: lead, pieces⟩ ↔
      (∀ token, ¬ Occurs active (c :: text) 0 token) ∧ IsComplete active text ⟨lead, pieces⟩ := by
  have hzero : ∀ token, (0, token) ∉ placed ⟨c :: lead, pieces⟩ := by
    intro token hmem
    have hle := le_of_mem_placedFrom hmem
    rw [List.length_cons] at hle
    omega
  constructor
  · rintro ⟨htext, hmem⟩
    refine ⟨?_, (List.cons.inj htext).2, ?_⟩
    · intro token hoccurs
      exact hzero token ((hmem 0 token).mpr hoccurs)
    · intro offset token
      rw [← mem_placed_cons_iff, hmem (offset + 1) token, occurs_cons_succ_iff]
  · rintro ⟨hnone, htext, hmem⟩
    refine ⟨congrArg (c :: ·) htext, ?_⟩
    intro offset token
    cases offset with
    | zero => exact iff_of_false (hzero token) (hnone token)
    | succ offset => rw [mem_placed_cons_iff, hmem offset token, occurs_cons_succ_iff]

/-- A token comes first in a complete cut exactly where it is active. -/
theorem isComplete_token_iff :
    IsComplete active (token.chars ++ text) ⟨[], (token, literal) :: pieces⟩ ↔
      active token ∧ IsComplete active text ⟨literal, pieces⟩ := by
  constructor
  · rintro ⟨htext, hmem⟩
    have hfirst : (0, token) ∈ placed ⟨[], (token, literal) :: pieces⟩ :=
      (mem_placed_token_iff_of_lt token.length_chars_pos).mpr ⟨rfl, rfl⟩
    rw [text_token] at htext
    refine ⟨((hmem 0 token).mp hfirst).1, List.append_cancel_left htext, ?_⟩
    intro offset other
    rw [← mem_placed_token_add_iff, hmem (token.chars.length + offset) other,
      occurs_append_add_iff]
  · rintro ⟨hactive, htext, hmem⟩
    refine ⟨by rw [text_token, htext], ?_⟩
    intro offset other
    by_cases hlt : offset < token.chars.length
    · rw [mem_placed_token_iff_of_lt hlt, occurs_append_iff_of_lt hactive hlt]
    · obtain ⟨behind, rfl⟩ := Nat.exists_eq_add_of_le (Nat.le_of_not_lt hlt)
      rw [mem_placed_token_add_iff, hmem behind other, occurs_append_add_iff]

end

/-! ## The cut that there is -/

section

/-- A text is empty, starts with an active token, or starts with a character that starts none. -/
theorem scan_induction
    (active : Token → Bool)
    {motive : List Char → Prop}
    (nil : motive [])
    (token : ∀ (token : Token) (text : List Char),
      active token → motive text → motive (token.chars ++ text))
    (literal : ∀ (c : Char) (text : List Char),
      (∀ token, ¬ Occurs active (c :: text) 0 token) → motive text → motive (c :: text))
    (text : List Char) :
    motive text := by
  induction hlength : text.length using Nat.strongRecOn generalizing text with
  | ind length ih =>
      cases text with
      | nil => exact nil
      | cons c rest =>
          by_cases hoccurs : ∃ first, Occurs active (c :: rest) 0 first
          · obtain ⟨first, hactive, behind, hbehind⟩ := hoccurs
            rw [List.drop_zero] at hbehind
            have hpos := first.length_chars_pos
            rw [← hbehind] at hlength ⊢
            rw [List.length_append] at hlength
            exact token first behind hactive (ih behind.length (by omega) behind rfl)
          · rw [List.length_cons] at hlength
            exact literal c rest (not_exists.mp hoccurs) (ih rest.length (by omega) rest rfl)

variable {active : Token → Bool} {text : List Char} {c : Char} {token : Token} {cut : Cut}

theorem IsComplete.eq_of_nil (h : IsComplete active [] cut) : cut = ⟨[], []⟩ := by
  obtain ⟨lead, pieces⟩ := cut
  have htext := h.text_eq
  rw [Cut.text, List.append_eq_nil_iff] at htext
  obtain ⟨rfl, hpieces⟩ := htext
  cases pieces with
  | nil => rfl
  | cons piece pieces =>
      have hpos := piece.1.length_chars_pos
      rw [List.flatMap_cons, List.append_eq_nil_iff, List.append_eq_nil_iff] at hpieces
      rw [hpieces.1.1] at hpos
      exact absurd hpos (Nat.lt_irrefl 0)

theorem IsComplete.exists_of_token
    (h : IsComplete active (token.chars ++ text) cut) (hactive : active token) :
    ∃ literal pieces, cut = ⟨[], (token, literal) :: pieces⟩ ∧
      IsComplete active text ⟨literal, pieces⟩ := by
  obtain ⟨lead, pieces⟩ := cut
  have hplaced : (0, token) ∈ placed ⟨lead, pieces⟩ :=
    (h.mem_placed_iff 0 token).mpr ⟨hactive, List.prefix_append _ _⟩
  have hlead : lead = [] := List.eq_nil_of_length_eq_zero
    (Nat.le_zero.mp (le_of_mem_placedFrom hplaced))
  subst hlead
  cases pieces with
  | nil => exact absurd hplaced List.not_mem_nil
  | cons piece pieces =>
      obtain ⟨first, literal⟩ := piece
      obtain ⟨-, rfl⟩ := (mem_placed_token_iff_of_lt first.length_chars_pos).mp hplaced
      exact ⟨literal, pieces, rfl, (isComplete_token_iff.mp h).2⟩

theorem IsComplete.exists_of_cons
    (h : IsComplete active (c :: text) cut)
    (hnone : ∀ token, ¬ Occurs active (c :: text) 0 token) :
    ∃ lead pieces, cut = ⟨c :: lead, pieces⟩ ∧ IsComplete active text ⟨lead, pieces⟩ := by
  obtain ⟨lead, pieces⟩ := cut
  cases lead with
  | cons first lead =>
      obtain rfl : first = c := (List.cons.inj h.text_eq).1
      exact ⟨lead, pieces, rfl, (isComplete_cons_iff.mp h).2⟩
  | nil =>
      cases pieces with
      | nil => exact absurd h.text_eq (List.cons_ne_nil c text).symm
      | cons piece pieces =>
          obtain ⟨first, literal⟩ := piece
          have hplaced : (0, first) ∈ placed ⟨[], (first, literal) :: pieces⟩ :=
            (mem_placed_token_iff_of_lt first.length_chars_pos).mpr ⟨rfl, rfl⟩
          exact absurd ((h.mem_placed_iff 0 first).mp hplaced) (hnone first)

theorem exists_isComplete (active : Token → Bool) (text : List Char) :
    ∃ cut, IsComplete active text cut := by
  induction text using scan_induction active with
  | nil => exact ⟨_, isComplete_nil⟩
  | token token text hactive ih =>
      obtain ⟨⟨lead, pieces⟩, hcut⟩ := ih
      exact ⟨_, isComplete_token_iff.mpr ⟨hactive, hcut⟩⟩
  | literal c text hnone ih =>
      obtain ⟨⟨lead, pieces⟩, hcut⟩ := ih
      exact ⟨_, isComplete_cons_iff.mpr ⟨hnone, hcut⟩⟩

theorem IsComplete.unique
    {other : Cut} (h : IsComplete active text cut) (h' : IsComplete active text other) :
    cut = other := by
  induction text using scan_induction active generalizing cut other with
  | nil => rw [h.eq_of_nil, h'.eq_of_nil]
  | token token text hactive ih =>
      obtain ⟨literal, pieces, rfl, hrest⟩ := h.exists_of_token hactive
      obtain ⟨literal', pieces', rfl, hrest'⟩ := h'.exists_of_token hactive
      cases ih hrest hrest'
      rfl
  | literal c text hnone ih =>
      obtain ⟨lead, pieces, rfl, hrest⟩ := h.exists_of_cons hnone
      obtain ⟨lead', pieces', rfl, hrest'⟩ := h'.exists_of_cons hnone
      cases ih hrest hrest'
      rfl

end

end Cut

/-! ## Filling -/

namespace Values

def value? (values : Values) : Token → Option String
  | .name => values.name
  | .type => values.typeName
  | .children => values.children

def isActive (values : Values) (token : Token) : Bool :=
  (values.value? token).isSome

def chars (values : Values) (token : Token) : List Char :=
  ((values.value? token).getD "").toList

theorem mem_active_iff {values : Values} {entry : List Char × List Char} :
    entry ∈ values.active ↔
      ∃ token, values.isActive token ∧ entry = (token.chars, values.chars token) := by
  have hactive : values.active =
      [Token.name, .type, .children].filterMap fun token =>
        (values.value? token).map fun value => (token.chars, value.toList) := rfl
  rw [hactive, List.mem_filterMap]
  constructor
  · rintro ⟨token, -, hentry⟩
    obtain ⟨value, hvalue, rfl⟩ := Option.map_eq_some_iff.mp hentry
    exact ⟨token, by simp [isActive, hvalue], by simp [chars, hvalue]⟩
  · rintro ⟨token, hisActive, rfl⟩
    obtain ⟨value, hvalue⟩ := Option.isSome_iff_exists.mp hisActive
    refine ⟨token, ?_, by simp [chars, hvalue]⟩
    cases token <;> decide

theorem tokenAt?_append
    {values : Values} {token : Token} (hactive : values.isActive token) (text : List Char) :
    values.tokenAt? (token.chars ++ text) = some (token.chars, values.chars token) := by
  have hprefix : token.chars <+: token.chars ++ text := List.prefix_append _ _
  have hfound : (values.tokenAt? (token.chars ++ text)).isSome := by
    rw [tokenAt?, List.find?_isSome]
    exact ⟨_, mem_active_iff.mpr ⟨token, hactive, rfl⟩, List.isPrefixOf_iff_prefix.mpr hprefix⟩
  obtain ⟨entry, hentry⟩ := Option.isSome_iff_exists.mp hfound
  rw [hentry]
  rw [tokenAt?] at hentry
  obtain ⟨other, -, rfl⟩ := mem_active_iff.mp (List.mem_of_find?_eq_some hentry)
  have hstart := List.find?_some hentry
  rw [Token.eq_of_isPrefix (List.isPrefixOf_iff_prefix.mp hstart) hprefix]

theorem tokenAt?_eq_none
    {values : Values} {text : List Char}
    (hnone : ∀ token, ¬ Occurs values.isActive text 0 token) :
    values.tokenAt? text = none := by
  rw [tokenAt?, List.find?_eq_none]
  intro entry hmem hprefix
  obtain ⟨token, hactive, rfl⟩ := mem_active_iff.mp hmem
  exact hnone token ⟨hactive, List.isPrefixOf_iff_prefix.mp hprefix⟩

theorem fillChars_token
    {values : Values} {token : Token} (hactive : values.isActive token) (text : List Char) :
    values.fillChars (token.chars ++ text) = values.chars token ++ values.fillChars text := by
  have htoken := tokenAt?_append hactive text
  obtain ⟨word, hchars, -⟩ := token.exists_chars_eq_cons
  rw [hchars, List.cons_append] at htoken ⊢
  rw [fillChars, htoken]
  simp

theorem fillChars_cons
    {values : Values} {c : Char} {text : List Char}
    (hnone : ∀ token, ¬ Occurs values.isActive (c :: text) 0 token) :
    values.fillChars (c :: text) = c :: values.fillChars text := by
  rw [fillChars, tokenAt?_eq_none hnone]

end Values

/-- The literal text of a cut, with the values of the tokens between the pieces. -/
def Cut.filled (cut : Cut) (values : Values) : List Char :=
  cut.lead ++ cut.pieces.flatMap fun (token, literal) => values.chars token ++ literal

/-- Filling in a text puts the values between the literal pieces of its complete cut. -/
theorem Cut.IsComplete.fillChars_eq
    {values : Values} {text : List Char} {cut : Cut}
    (h : cut.IsComplete values.isActive text) :
    values.fillChars text = cut.filled values := by
  induction text using scan_induction values.isActive generalizing cut with
  | nil =>
      rw [h.eq_of_nil, Values.fillChars]
      rfl
  | token token text hactive ih =>
      obtain ⟨literal, pieces, rfl, hrest⟩ := h.exists_of_token hactive
      rw [Values.fillChars_token hactive, ih hrest, filled, filled, List.flatMap_cons,
        List.nil_append, List.append_assoc]
  | literal c text hnone ih =>
      obtain ⟨lead, pieces, rfl, hrest⟩ := h.exists_of_cons hnone
      rw [Values.fillChars_cons hnone, ih hrest]
      rfl

/-- Whatever tokens are active, a template can be cut at all of them in exactly one way, and for all
values of these tokens the filled template is the literal text of that cut with the values in
between. -/
theorem fill_eq_filled_of_unique_cut (template : String) (active : Token → Bool) :
    ∃ cut : Cut,
      (cut.IsComplete active template.toList ∧
        ∀ other : Cut, other.IsComplete active template.toList → other = cut) ∧
      ∀ values : Values, values.isActive = active →
        values.fill template = String.ofList (cut.filled values) := by
  obtain ⟨cut, hcut⟩ := Cut.exists_isComplete active template.toList
  refine ⟨cut, ⟨hcut, fun other hother => hother.unique hcut⟩, ?_⟩
  rintro values rfl
  rw [Values.fill, hcut.fillChars_eq]

/-- A template with braces in front of a token, around one and without an end. -/
def braceTemplate : String := "\x7b\x7bName\x7d\x7bTy\x7bChildren\x7d\x7bType\x7d\x7bName"

/-- Values that contain a token and the second half of one; there is no type. -/
def braceValues : Values := ⟨some "\x7bChildren\x7d", none, some "pe\x7d\x7bName\x7d"⟩

theorem fill_eq_filled_of_braceTemplate :
    braceValues.isActive = (· ≠ Token.type) ∧
      ∃ cut : Cut, cut.IsComplete (· ≠ Token.type) braceTemplate.toList ∧
        cut.filled braceValues =
          "\x7b\x7bChildren\x7d\x7bType\x7d\x7bName\x7d\x7bType\x7d\x7bName".toList := by
  have hactive : braceValues.isActive = (· ≠ Token.type) := by
    funext token
    cases token <;> rfl
  have htext : braceValues.fill braceTemplate =
      "\x7b\x7bChildren\x7d\x7bType\x7d\x7bName\x7d\x7bType\x7d\x7bName" := by
    with_unfolding_all rfl
  obtain ⟨cut, ⟨hcut, -⟩, hfill⟩ := fill_eq_filled_of_unique_cut braceTemplate (· ≠ Token.type)
  refine ⟨hactive, cut, hcut, ?_⟩
  rw [← htext, hfill braceValues hactive, String.toList_ofList]

end TreeGen.Template
