import BlockLayout.Proofs.Cursor.OpenModes
import BlockLayout.Proofs.Token.Literals
import BlockLayout.Proofs.Token.Reserved

/-! # Tokens and their texts

What a token was read as tells what its text looks like.  `TokenClass.Fits` says for every class which
texts it has, in front of which rest, in which mode.  Each branch of reading keeps to it
(`Mode.BaseReading.fits_text`, `Mode.fits_read`), and so does the run of blanks that is a token of a
document (`LineState.fits_next`).  `Telling` says the same by the parts of a class that a host
looks at: the style, the role and the mark.

Main statement: `token_tells_text`. -/

namespace BlockLayout

open Text (eq_of_isPrefix)

/-- The text of a token of the class, read in the mode in front of the rest of the line. -/
def TokenClass.Fits (mode : Mode) (token rest : Text) : TokenClass → Prop
  | plain => (token ≠ [] ∧ token.isAllBlank = true ∧ rest.StartsVisible) ∨
      ∃ c, token = [c] ∧ Text.isBlank c = false
  | punctuation c => token = [c] ∧ Mode.isPunctuation c = true
  | keyword role => (token, keyword role) ∈ Word.reserved
  | operator =>
      token ∈ ["and".toList, "or".toList, "mod".toList, "not=".toList, "/".toList] ∨
        token ≠ [] ∧ (∀ c ∈ token, Mode.isOperatorChar c = true) ∧
          ∀ c ∈ rest.head?, Mode.isOperatorChar c = false
  | atom => (token, atom) ∈ Word.reserved
  | type => (token, type) ∈ Word.reserved
  | builtin => (token, builtin) ∈ Word.reserved
  | string => token.head? = some '"' ∨ ∃ quote, mode = .string quote
  | comment => lineCommentMark <+: token ∨ blockCommentMarks.1 <+: token ∨ mode = .blockComment
  | number => Number.IsLongestLiteral (token ++ rest) token

/-! ### One token of a line -/

section token

variable {before : Option Char} {input token rest : Text} {cls : TokenClass} {r : Reading Mode}

theorem Word.operator_of_reserved (h : (token, TokenClass.operator) ∈ reserved) :
    token ∈ ["and".toList, "or".toList, "mod".toList] := by
  have hall : ∀ entry ∈ reserved, entry.2 = .operator →
      entry.1 ∈ ["and".toList, "or".toList, "mod".toList] := by decide
  exact hall _ h rfl

theorem TokenClass.fits_of_reserved (mode : Mode) (rest : Text) (h : (token, cls) ∈ Word.reserved) :
    cls.Fits mode token rest := by
  have hstyle := Word.style?_of_mem h
  cases cls with
  | keyword role => exact h
  | atom => exact h
  | type => exact h
  | builtin => exact h
  | operator => exact Or.inl (List.mem_append_left ["not=".toList, "/".toList] (Word.operator_of_reserved h))
  | plain => exact absurd hstyle (by decide)
  | punctuation c => exact absurd (show none ∈ Word.styles from hstyle) (by decide)
  | string => exact absurd hstyle (by decide)
  | comment => exact absurd hstyle (by decide)
  | number => exact absurd hstyle (by decide)

namespace Mode

/-- Every branch of ordinary code reads a text of the class it gives. -/
theorem BaseReading.fits_text (h : BaseReading before input r) (split : input = token ++ rest)
    (length : r.length = token.length) (visible : token.StartsVisible) :
    r.cls.Fits .base token rest := by
  have hstarts : token <+: input := split ▸ List.prefix_append token rest
  have hmark : ∀ mark, mark <+: input → mark.length ≤ r.length → mark <+: token :=
    fun mark hmark hle => List.prefix_of_prefix_length_le hmark hstarts (length ▸ hle)
  cases h with
  | string t =>
      obtain ⟨u, rfl⟩ := hmark ['"'] ⟨t, rfl⟩ (Nat.le_add_right 1 _)
      exact Or.inl rfl
  | blockComment t =>
      exact Or.inr (Or.inl (hmark blockCommentMarks.1 ⟨t, rfl⟩ (Nat.le_add_right 2 _)))
  | lineComment t => exact Or.inl (hmark lineCommentMark ⟨t, rfl⟩ (Nat.le_add_left 2 _))
  | @slash t _ _ =>
      have htoken : token = ['/'] := eq_of_isPrefix hstarts ⟨t, rfl⟩ length.symm
      exact Or.inl (by rw [htoken]; decide)
  | @operator c t op =>
      have hrun : c :: t = c :: t.takeWhile isOperatorChar ++ t.dropWhile isOperatorChar := by
        rw [List.cons_append, List.takeWhile_append_dropWhile]
      have htoken : token = c :: t.takeWhile isOperatorChar :=
        eq_of_isPrefix hstarts ⟨_, hrun.symm⟩ (by rw [List.length_cons, Nat.add_comm]; exact length.symm)
      have hrest : rest = t.dropWhile isOperatorChar := by
        rw [htoken, hrun] at split
        exact (List.append_cancel_left split).symm
      refine Or.inr ⟨htoken ▸ List.cons_ne_nil c _, ?_, fun d hd => ?_⟩
      · rw [htoken]
        exact List.forall_mem_cons.mpr ⟨op, List.all_eq_true.mp List.all_takeWhile⟩
      · have hstop := List.head?_dropWhile_not isOperatorChar t
        rw [← hrest, Option.mem_def.mp hd] at hstop
        simpa using hstop
  | number _ _ hn =>
      obtain rfl : _ = token.length := length
      rw [split] at hn
      exact (Number.length?_eq_some_iff.mp hn).1
  | notEqual _ _ _ found =>
      have htoken := eq_of_isPrefix hstarts found length.symm
      exact Or.inl (by rw [htoken]; decide)
  | word _ _ _ _ hword =>
      have htoken := eq_of_isPrefix hstarts (Word.isPrefix_leading _) length.symm
      rw [← htoken] at hword
      exact TokenClass.fits_of_reserved _ rest (Word.mem_reserved hword)
  | @char c t _ _ _ =>
      have htoken : token = [c] := eq_of_isPrefix hstarts ⟨t, rfl⟩ length.symm
      simp only
      split
      · rename_i hmarks
        exact ⟨htoken, hmarks⟩
      · exact Or.inr ⟨c, htoken, Text.startsVisible_cons.mp (htoken ▸ visible)⟩

/-- What a mode reads is a text of the class it gives. -/
theorem fits_read {mode next : Mode} (nonempty : token ≠ []) (visible : token.StartsVisible)
    (read : Mode.read mode before (token ++ rest) = ⟨cls, token.length, next⟩) :
    cls.Fits mode token rest := by
  cases mode with
  | base =>
      have hreading :=
        baseReading_of_ne_nil before (List.append_ne_nil_of_left_ne_nil nonempty rest)
      have hread : readBase before (token ++ rest) = ⟨cls, token.length, next⟩ := read
      rw [hread] at hreading
      exact hreading.fits_text rfl rfl visible
  | blockComment =>
      obtain rfl : TokenClass.comment = cls := congrArg Reading.cls read
      exact Or.inr (Or.inr rfl)
  | string quote =>
      obtain rfl : TokenClass.string = cls := congrArg Reading.cls read
      exact Or.inr ⟨quote, rfl⟩

end Mode

namespace LineState

variable {tabSize : Nat} {s last : LineState}

theorem startsVisible_behind_blanks (nonempty : token ≠ []) (blank : token.isAllBlank = true)
    (read : next tabSize s before (token ++ rest) = ⟨cls, token.length, last⟩) :
    rest.StartsVisible := by
  rcases Text.leadingBlanks_ne_nil_or (List.append_ne_nil_of_left_ne_nil nonempty rest) with
    hlead | ⟨c, t, hct, hc⟩
  · rw [next_of_leadingBlanks tabSize s before hlead] at read
    have htoken : (token ++ rest).leadingBlanks = token :=
      eq_of_isPrefix (List.takeWhile_prefix _) (List.prefix_append token rest)
        (congrArg Reading.length read)
    have hsplit := Text.leadingBlanks_append_trimStart (token ++ rest)
    rw [htoken] at hsplit
    rw [← List.append_cancel_left hsplit]
    exact Text.startsVisible_trimStart _
  · rw [Text.isAllBlank_eq_false hc nonempty hct.symm] at blank
    cases blank

theorem fits_next (nonempty : token ≠ [])
    (read : next tabSize s before (token ++ rest) = ⟨cls, token.length, last⟩) :
    cls.Fits s.mode token rest ∧ (cls.style?.isSome = true → token.StartsVisible) := by
  rcases next_cases nonempty read with ⟨hblank, rfl, -⟩ | ⟨hvisible, hread⟩
  · exact ⟨Or.inl ⟨nonempty, hblank, startsVisible_behind_blanks nonempty hblank read⟩,
      fun hstyle => by cases hstyle⟩
  · exact ⟨Mode.fits_read nonempty hvisible hread, fun _ => hvisible⟩

end LineState

end token

/-! ### What a host is told -/

/-- What the style, the role and the mark of a token tell of its text, in front of `rest`.  The token was
read in `mode`. -/
structure Telling (mode : Mode) (token rest : Text) (cls : TokenClass) : Prop where
  nonempty : token ≠ []
  /-- Every token of the keyword style has a role, and no other has. -/
  role_iff : cls.role?.isSome = true ↔ cls.style? = some .keyword
  /-- The text of a keyword is a word that is reserved for its role. -/
  keyword : ∀ role, cls.role? = some role → (token, TokenClass.keyword role) ∈ Word.reserved
  /-- A mark comes with no style and no role, and is the text. -/
  mark : ∀ c, cls.mark? = some c →
    cls.style? = none ∧ cls.role? = none ∧ token = [c] ∧ c ∈ ['.', ',', ':', '(', ')']
  /-- With no style and no mark the text is a whole run of blanks, or one character that is none. -/
  plain : cls.style? = none → cls.mark? = none →
    (token.isAllBlank = true ∧ rest.StartsVisible) ∨ ∃ c, token = [c] ∧ Text.isBlank c = false
  atom : cls.style? = some .atom → (token, TokenClass.atom) ∈ Word.reserved
  type : cls.style? = some .type → (token, TokenClass.type) ∈ Word.reserved
  builtin : cls.style? = some .builtin → (token, TokenClass.builtin) ∈ Word.reserved
  /-- An operator is a word, `not=`, a slash, or a whole run of the other operator characters. -/
  operator : cls.style? = some .operator →
    token ∈ ["and".toList, "or".toList, "mod".toList, "not=".toList, "/".toList] ∨
      (∀ c ∈ token, c ∈ ['+', '-', '*', '<', '>', '=']) ∧
        ∀ c ∈ rest.head?, c ∉ ['+', '-', '*', '<', '>', '=']
  /-- A comment starts with one of its marks, unless it was open before. -/
  comment : cls.style? = some .comment → mode ≠ .blockComment →
    "//".toList <+: token ∨ "/*".toList <+: token
  /-- A string starts with a double quote, unless one was open before. -/
  string : cls.style? = some .string → (∀ quote, mode ≠ .string quote) → token.head? = some '"'
  number : cls.style? = some .number → Number.IsLongestLiteral (token ++ rest) token
  /-- A token with a style starts with no blank. -/
  visible : cls.style?.isSome = true → ∃ c ∈ token.head?, Text.isBlank c = false

theorem TokenClass.Fits.telling {mode : Mode} {token rest : Text} {cls : TokenClass}
    (h : cls.Fits mode token rest) (nonempty : token ≠ [])
    (visible : cls.style?.isSome = true → token.StartsVisible) : Telling mode token rest cls where
  nonempty := nonempty
  role_iff := by cases cls <;> simp [role?, style?]
  keyword role hrole := by
    obtain rfl := role?_eq_some_iff.mp hrole
    exact h
  mark c hmark := by
    obtain ⟨hstyle, hrole⟩ := style?_of_mark? hmark
    cases cls with
    | punctuation d =>
        obtain rfl := Option.some.inj hmark
        exact ⟨hstyle, hrole, h.1, of_decide_eq_true h.2⟩
    | _ => cases hmark
  plain hstyle hmark := by
    cases cls with
    | plain => exact h.imp_left And.right
    | punctuation d => cases hmark
    | _ => cases hstyle
  atom hstyle := by
    cases cls with
    | atom => exact h
    | _ => cases hstyle
  type hstyle := by
    cases cls with
    | type => exact h
    | _ => cases hstyle
  builtin hstyle := by
    cases cls with
    | builtin => exact h
    | _ => cases hstyle
  operator hstyle := by
    cases cls with
    | operator =>
        rcases h with hword | ⟨-, hrun, hstop⟩
        · exact Or.inl hword
        · exact Or.inr ⟨fun c hc => of_decide_eq_true (hrun c hc),
            fun c hc => of_decide_eq_false (hstop c hc)⟩
    | _ => cases hstyle
  comment hstyle hmode := by
    cases cls with
    | comment => exact h.imp_right fun h => h.resolve_right hmode
    | _ => cases hstyle
  string hstyle hmode := by
    cases cls with
    | string => exact h.resolve_right (not_exists.mpr hmode)
    | _ => cases hstyle
  number hstyle := by
    cases cls with
    | number => exact h
    | _ => cases hstyle
  visible hstyle := by
    obtain ⟨c, t, rfl⟩ := List.exists_cons_of_ne_nil nonempty
    exact ⟨c, rfl, Text.startsVisible_cons.mp (visible hstyle)⟩

namespace Cursor

/-- **A token's fields tell its text.**  From between any two characters of a line, short of its end, and
in any state, a call gives a token, and what its style, its role and its mark tell of its text is so. -/
theorem token_tells_text (c : Cursor) (s : LineState) (boundary : c.line.IsBoundary c.position)
    (more : c.isAtEnd = false) :
    ∃ cls c' s' token rest, c.readToken s = (.ok cls, c', s') ∧ c'.start = c.position ∧
      c'.current = .ok token ∧ c'.rest = .ok rest ∧ Telling s.mode token rest cls := by
  obtain ⟨before, after, stands⟩ := exists_standsAt boundary
  obtain ⟨token, rest, cls, c', s', rfl, hne, hread, -, -, hstart, hstands, hshown, hstep⟩ :=
    exists_read (LineState.advances_next c.tabSize) readToken_eq s rfl stands more
  obtain ⟨hfits, hvisible⟩ := LineState.fits_next hne hstep
  exact ⟨cls, c', s', token, rest, hread, hstart, hshown, hstands.rest_eq, hfits.telling hne hvisible⟩

/-- Behind a character of two bytes and a space, in front of a digit, the text of an operator. -/
theorem token_tells_text_of_not_equal :
    let c : Cursor := ⟨"é not=1".toList, 3, 0, 4⟩
    let s : LineState := LineState.start {}
    c.line.IsBoundary c.position ∧ c.isAtEnd = false ∧
      ∃ c', c.readToken s = (.ok .operator, c', s) ∧ c'.current = .ok "not=".toList ∧
        c'.rest = .ok "1".toList ∧ Telling .base "not=".toList "1".toList .operator := by
  intro c s
  have boundary : c.line.IsBoundary c.position := by decide
  have more : c.isAtEnd = false := by decide
  obtain ⟨cls, c', s', token, rest, hread, -, hshown, hrest, htelling⟩ :=
    token_tells_text c s boundary more
  have hread' : c.readToken s = (.ok .operator, { c with position := 7, start := 3 }, s) :=
    (readToken_eq c s rfl).trans rfl
  rw [hread'] at hread
  obtain ⟨hcls, hbehind⟩ := Prod.mk.inj hread
  obtain ⟨rfl, rfl⟩ := Prod.mk.inj hbehind
  obtain rfl := Except.ok.inj hcls
  obtain rfl : "not=".toList = token := Except.ok.inj hshown
  obtain rfl : "1".toList = rest := Except.ok.inj hrest
  exact ⟨boundary, more, _, hread', hshown, hrest, htelling⟩

end Cursor

end BlockLayout
