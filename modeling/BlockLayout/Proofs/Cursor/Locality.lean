import BlockLayout.Proofs.Cursor.OpenModes
import BlockLayout.Proofs.Document.Reading
import BlockLayout.Proofs.Token.Reserved

/-! # What reading sees of the text before

A call for the next token sees the rest of the line and, of the text before the cursor, on which side
of a word its last character stands: a separator, a word character or anything else (`Mode.Side`).  Two
calls whose cursors stand before the same text, behind characters of one side, cannot be told apart.
Behind characters of different sides they can: `if` is a reserved word behind a separator only, and `1`
is a number everywhere but behind a word character.

Main statement: `reading_is_local`. -/

namespace BlockLayout

namespace Mode

/-- What the character before a token can be, as far as reading tells. -/
inductive Side where
  /-- The start of the line, a space, a tab or an opening parenthesis. -/
  | separator
  /-- A word character. -/
  | word
  /-- Any other character. -/
  | other
  deriving DecidableEq, Repr

/-- The side that a token stands on behind a character, or at the start of the line. -/
def sideOf : Option Char → Side
  | none => .separator
  | some c =>
    if c ∈ [' ', '\t', '('] then .separator
    else if isWordChar c then .word
    else .other

variable (before : Option Char)

theorem isAfterWord_of_opensWord (h : opensWord before = true) : isAfterWord before = false := by
  cases before with
  | none => rfl
  | some c =>
      cases hword : isWordChar c with
      | false => exact hword
      | true =>
          rw [not_separator (p := isWordChar) (by decide) hword] at h
          cases h

theorem sideOf_eq :
    sideOf before =
      if opensWord before then .separator else if isAfterWord before then .word else .other := by
  cases before with
  | none => rfl
  | some c => exact (if_congr decide_eq_true_iff rfl rfl).symm

theorem opensWord_eq : opensWord before = decide (sideOf before = .separator) := by
  rw [sideOf_eq]
  cases opensWord before <;> cases isAfterWord before <;> rfl

theorem isAfterWord_eq : isAfterWord before = decide (sideOf before = .word) := by
  have hstarts := isAfterWord_of_opensWord before
  rw [sideOf_eq]
  cases hopen : opensWord before with
  | true => rw [hstarts hopen]; rfl
  | false => cases isAfterWord before <;> rfl

theorem sideOf_eq_iff {before before' : Option Char} :
    sideOf before = sideOf before' ↔ SameSide before before' := by
  constructor
  · intro h
    constructor
    · rw [isAfterWord_eq, isAfterWord_eq, h]
    · rw [opensWord_eq, opensWord_eq, h]
  · rintro ⟨hafter, hopen⟩
    rw [sideOf_eq, sideOf_eq, hafter, hopen]

/-! ### Telling the sides apart -/

theorem cls_read_if :
    (read .base before "if".toList).cls =
      if opensWord before then .keyword .opener else .plain := by
  change (readBase before ['i', 'f']).cls = _
  unfold readBase readNumber? readWord?
  cases opensWord before <;> cases isAfterWord before <;> rfl

theorem cls_read_one :
    (read .base before "1".toList).cls = if isAfterWord before then .plain else .number := by
  change (readBase before ['1']).cls = _
  unfold readBase readNumber? readWord?
  cases opensWord before <;> cases isAfterWord before <;> rfl

end Mode

namespace Cursor

open Mode (sideOf SameSide)

variable {before before' : Text}

theorem StandsAt.exists_token {after : Text} {c : Cursor} (stands : c.StandsAt before after)
    (mode : Mode) :
    ∃ token rest d, after = token ++ rest ∧
      token.length = (mode.read before.getLast? after).length ∧
      c.readMode mode =
        (.ok (mode.read before.getLast? after).cls, d, (mode.read before.getLast? after).state) ∧
      d.position = c.position + token.byteLength := by
  obtain ⟨token, rest, d, hafter, hlength, hread, -, hstands, -⟩ :=
    stands.exists_readWith rfl (Mode.length_read_le mode before.getLast? after)
  rw [← readMode_eq] at hread
  refine ⟨token, rest, d, hafter, hlength, hread, ?_⟩
  rw [hstands.2, stands.2, Text.byteLength_append]

/-- Two calls before the same text, behind characters of one side, read the same token. -/
theorem readMode_alike (side : SameSide before.getLast? before'.getLast?) (mode : Mode) {after : Text}
    {c c' : Cursor} (stands : c.StandsAt before after) (stands' : c'.StandsAt before' after) :
    ∃ cls token rest next d d', after = token ++ rest ∧
      c.readMode mode = (.ok cls, d, next) ∧ c'.readMode mode = (.ok cls, d', next) ∧
      d.position = c.position + token.byteLength ∧ d'.position = c'.position + token.byteLength := by
  obtain ⟨token, rest, d, hafter, hlength, hread, hposition⟩ := stands.exists_token mode
  obtain ⟨token', rest', d', hafter', hlength', hread', hposition'⟩ := stands'.exists_token mode
  rw [Mode.read_congr side] at hread hlength
  have htoken : token = token' :=
    Text.eq_of_isPrefix ⟨rest, hafter.symm⟩ ⟨rest', hafter'.symm⟩ (hlength.trans hlength'.symm)
  subst htoken
  exact ⟨_, token, rest, _, d, d', hafter, hread, hread', hposition, hposition'⟩

/-- Calls that cannot be told apart stand behind characters of one side. -/
theorem sameSide_of_readMode
    (alike : ∀ (mode : Mode) (after : Text) (c c' : Cursor), c.StandsAt before after →
      c'.StandsAt before' after → (c.readMode mode).1 = (c'.readMode mode).1) :
    SameSide before.getLast? before'.getLast? := by
  have hcls : ∀ after : Text, (Mode.read .base before.getLast? after).cls =
      (Mode.read .base before'.getLast? after).cls := by
    intro after
    have stands : ∀ front : Text, StandsAt ⟨front ++ after, front.byteLength, 0, 4⟩ front after :=
      fun front => ⟨rfl, rfl⟩
    obtain ⟨-, -, d, -, -, hread, -⟩ := (stands before).exists_token .base
    obtain ⟨-, -, d', -, -, hread', -⟩ := (stands before').exists_token .base
    have heq := alike .base after _ _ (stands before) (stands before')
    rw [hread, hread'] at heq
    exact Except.ok.inj heq
  have hword := hcls "1".toList
  have hopen := hcls "if".toList
  rw [Mode.cls_read_one, Mode.cls_read_one] at hword
  rw [Mode.cls_read_if, Mode.cls_read_if] at hopen
  have hone : ∀ b b' : Bool, (if b then TokenClass.plain else .number) =
      (if b' then TokenClass.plain else .number) → b = b' := by decide
  have hif : ∀ b b' : Bool, (if b then TokenClass.keyword .opener else .plain) =
      (if b' then TokenClass.keyword .opener else .plain) → b = b' := by decide
  exact ⟨hone _ _ hword, hif _ _ hopen⟩

/-- **Reading is local.**  Take two lines that end in the same text and a cursor before that text in
each.  In every mode the two calls give the same class, pass over the same text and leave the same mode,
if the characters before the cursors stand on one side: both are separators or missing, or both belong
to words, or both are other characters.  And only then do they do so for every text. -/
theorem reading_is_local (before before' : Text) :
    sideOf before.getLast? = sideOf before'.getLast? ↔
      ∀ (mode : Mode) (after : Text) (c c' : Cursor),
        c.StandsAt before after → c'.StandsAt before' after →
        ∃ cls token rest next d d', after = token ++ rest ∧
          c.readMode mode = (.ok cls, d, next) ∧ c'.readMode mode = (.ok cls, d', next) ∧
          d.position = c.position + token.byteLength ∧
          d'.position = c'.position + token.byteLength := by
  rw [Mode.sideOf_eq_iff]
  constructor
  · exact fun side mode _ _ _ stands stands' => readMode_alike side mode stands stands'
  · refine fun alike => sameSide_of_readMode fun mode after c c' stands stands' => ?_
    obtain ⟨cls, token, rest, next, d, d', -, hread, hread', -⟩ :=
      alike mode after c c' stands stands'
    rw [hread, hread']

/-- A parenthesis behind two bytes, and the start of the line. -/
theorem reading_is_local_behind_parenthesis :
    let c : Cursor := ⟨"é(if x".toList, 3, 0, 4⟩
    let c' : Cursor := ⟨"if x".toList, 0, 0, 2⟩
    ∃ cls, ∃ token rest : Text, ∃ next d d', "if x".toList = token ++ rest ∧
      c.readMode .base = (.ok cls, d, next) ∧ c'.readMode .base = (.ok cls, d', next) ∧
      d.position = 3 + token.byteLength ∧ d'.position = 0 + token.byteLength :=
  (reading_is_local "é(".toList []).mp (by decide) .base "if x".toList ⟨"é(if x".toList, 3, 0, 4⟩
    ⟨"if x".toList, 0, 0, 2⟩ ⟨by decide, by decide⟩ ⟨by decide, by decide⟩

end Cursor

end BlockLayout
