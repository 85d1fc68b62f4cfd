import BlockLayout.Proofs.Cursor.Lossless
import BlockLayout.Proofs.Token.Reserved

/-! # Where reserved words are read

Where a reserved word stands by itself (`Text.WordAt`), outside of strings and comments, a token must
begin: the character before it is a separator, which no token of ordinary code goes on past, and a
run of blanks ends with it (`next_up_to_separator`, `exists_front`).  What is read there is the word
(`exists_word`).  Conversely a token with the text and the style of a reserved word was read as that
word, so that it stands by itself (`wordAt_of_lexeme`).

Main statement: `reserved_word_iff`. -/

namespace BlockLayout

/-- The word stands by itself between two offsets of the line: at the start of the line or after a
space, a tab or an opening parenthesis, and with no word character behind it. -/
def Text.WordAt (line word : Text) (start stop : Nat) : Prop :=
  ∃ before after, line = before ++ word ++ after ∧ start = byteLength before ∧
    stop = byteLength (before ++ word) ∧ (∀ c ∈ before.getLast?, c = ' ' ∨ c = '\t' ∨ c = '(') ∧
    ∀ c ∈ after.head?, isWordChar c = false

theorem Mode.opensWord_iff {before : Option Char} :
    opensWord before = true ↔ ∀ c ∈ before, c = ' ' ∨ c = '\t' ∨ c = '(' := by
  cases before with
  | none => simp [opensWord]
  | some c => simp [opensWord]

namespace LineState

open Mode (opensWord)

variable {tabSize : Nat} {s last : LineState} {before : Option Char} {lexemes : List Lexeme}

/-! ### A token begins behind a separator -/

/-- Of all tokens only a string or a comment goes on past a separator and a visible character behind
it. -/
theorem next_past_separator {front back rest : Text} {cls : TokenClass} {next' : LineState} {c : Char}
    (ends : front.getLast? = some c) (separator : opensWord (some c) = true)
    (visible : back.StartsVisible) (nonempty : back ≠ [])
    (read : next tabSize s before (front ++ back ++ rest) =
      ⟨cls, (front ++ back).length, next'⟩) : cls = .string ∨ cls = .comment := by
  have hfront : front ≠ [] := List.ne_nil_of_mem (List.mem_of_getLast? ends)
  rcases next_cases (List.append_ne_nil_of_left_ne_nil hfront back) read with
    ⟨hblank, -, -⟩ | ⟨-, hread⟩
  · -- a run of blanks has no visible character in it
    obtain ⟨d, u, rfl⟩ := List.exists_cons_of_ne_nil nonempty
    have hall := Text.isAllBlank_iff.mp hblank d (List.mem_append_right front List.mem_cons_self)
    rw [Text.startsVisible_cons.mp visible] at hall
    cases hall
  · have hpos := List.length_pos_iff.mpr nonempty
    rw [List.append_assoc] at hread
    have hpast := Mode.read_past_separator ends separator
      (by rw [hread]; simp only [List.length_append]; omega)
    rwa [hread] at hpast

theorem next_up_to_separator {token front back rest : Text} {cls : TokenClass} {next' : LineState}
    (split : token ++ rest = front ++ back) (starts : front ≠ [])
    (separator : ∀ c ∈ front.getLast?, opensWord (some c) = true)
    (visible : back.StartsVisible)
    (read : next tabSize s before (token ++ rest) = ⟨cls, token.length, next'⟩)
    (outside : cls = .string ∨ cls = .comment → token.byteLength ≤ front.byteLength) :
    ∃ more, front = token ++ more ∧ rest = more ++ back := by
  rcases List.append_eq_append_iff.mp split with h | ⟨more, rfl, rfl⟩
  · exact h
  by_cases hmore : more = []
  · subst hmore
    exact ⟨[], by simp, rfl⟩
  obtain ⟨c, hc⟩ := Option.ne_none_iff_exists'.mp (mt List.getLast?_eq_none_iff.mp starts)
  have hstarts : Text.StartsVisible more := visible.of_append hmore
  have hle := outside (next_past_separator hc (separator c hc) hstarts hmore read)
  have hpos := Text.byteLength_pos hmore
  rw [Text.byteLength_append] at hle
  omega

/-- A token begins behind a separator before a visible character that no string and no comment
covers. -/
theorem exists_front {input : Text} (h : Cuts (next tabSize) s before input lexemes last) :
    ∀ {n : Nat} {front back : Text}, input = front ++ back →
      (∀ c ∈ front.getLast?, opensWord (some c) = true) → back.StartsVisible → back ≠ [] →
      (∀ t ∈ Span.place n lexemes, t.cls = .string ∨ t.cls = .comment →
        ¬ t.Covers (n + front.byteLength)) →
      ∃ ls ms next', lexemes = ls ++ ms ∧ Lexeme.spelled ls = front ∧
        Cuts (next tabSize) next' (Text.lastOr before front) back ms last := by
  induction h with
  | nil s before =>
      intro n front back split _ _ nonempty _
      exact absurd (List.append_eq_nil_iff.mp split.symm).2 nonempty
  | @cons s s₁ last before cls token rest lexemes htoken read tail ih =>
      intro n front back split separator visible nonempty outside
      by_cases hfront : front = []
      · subst hfront
        rw [List.nil_append] at split
        exact ⟨[], _, s, rfl, rfl, split ▸ .cons htoken read tail⟩
      have hshort : cls = .string ∨ cls = .comment → token.byteLength ≤ front.byteLength :=
        fun hcls => Nat.le_of_not_lt fun hlt => outside _ List.mem_cons_self hcls
          ⟨Nat.le_add_right n _, Nat.add_lt_add_left hlt n⟩
      obtain ⟨more, rfl, rfl⟩ :=
        next_up_to_separator split hfront separator visible read hshort
      have hmore : ∀ c ∈ more.getLast?, opensWord (some c) = true := by
        intro c hc
        refine separator c ?_
        rw [List.getLast?_append, Option.mem_def.mp hc]
        rfl
      have hrest : ∀ t ∈ Span.place (n + token.byteLength) lexemes,
          t.cls = .string ∨ t.cls = .comment →
            ¬ t.Covers (n + token.byteLength + more.byteLength) := by
        intro t ht hcls
        have hcovers := outside t (List.mem_cons_of_mem _ ht) hcls
        rwa [Text.byteLength_append, ← Nat.add_assoc] at hcovers
      obtain ⟨ls, ms, next', rfl, rfl, hcuts⟩ := ih rfl hmore visible nonempty hrest
      refine ⟨⟨cls, token⟩ :: ls, ms, next', rfl, rfl, ?_⟩
      rw [Text.lastOr_append htoken]
      exact hcuts

/-! ### The word is read -/

theorem exists_first {input : Text} (h : Cuts (next tabSize) s before input lexemes last)
    (nonempty : input ≠ []) (visible : input.StartsVisible) :
    ∃ token rest ms, input = token ++ rest ∧ token ≠ [] ∧
      lexemes = ⟨(s.mode.read before input).cls, token⟩ :: ms ∧
      token.length = (s.mode.read before input).length := by
  cases h with
  | nil => exact absurd rfl nonempty
  | @cons _ _ _ _ cls token rest ms htoken read _ =>
      obtain ⟨c, t, hct⟩ := List.exists_cons_of_ne_nil nonempty
      rw [hct] at visible
      rw [hct, next_visible tabSize s before t (Text.startsVisible_cons.mp visible), ← hct] at read
      have hcls : (s.mode.read before (token ++ rest)).cls = cls := congrArg Reading.cls read
      have hlength : (s.mode.read before (token ++ rest)).length = token.length :=
        congrArg Reading.length read
      exact ⟨token, rest, ms, rfl, htoken, by rw [hcls], hlength.symm⟩

variable {line word : Text} {cls : TokenClass}

/-- A reserved word that stands by itself outside of strings and comments is one of the lexemes. -/
theorem exists_word {front rest : Text} (mem : (word, cls) ∈ Word.reserved)
    (h : Cuts (next tabSize) s none line lexemes last) (split : line = front ++ (word ++ rest))
    (separator : opensWord front.getLast? = true) (whole : ∀ c ∈ rest.head?, isWordChar c = false)
    (outside : ∀ t ∈ Span.place 0 lexemes, t.cls = .string ∨ t.cls = .comment →
      ¬ t.Covers front.byteLength) :
    ∃ ls ms, lexemes = ls ++ ⟨cls, word⟩ :: ms ∧ Lexeme.spelled ls = front := by
  have hlead := (Word.leading_append_iff (Word.isWord_of_mem mem)).mpr whole
  have hvisible := Word.startsVisible_append mem rest
  have hnonempty := List.append_ne_nil_of_left_ne_nil (Word.ne_nil_of_mem mem) rest
  obtain ⟨ls, ms, s', rfl, rfl, hcuts⟩ := exists_front h (n := 0) split
    (fun d hd => by rwa [Option.mem_def.mp hd] at separator) hvisible hnonempty
    (fun u hu hcls => by rw [Nat.zero_add]; exact outside u hu hcls)
  rw [Text.lastOr_none] at hcuts
  obtain ⟨token, rest', ms', hinput, htoken, rfl, hlength⟩ := exists_first hcuts hnonempty hvisible
  have hin : ¬ ((s'.mode.read (Lexeme.spelled ls).getLast? (word ++ rest)).cls = .string ∨
      (s'.mode.read (Lexeme.spelled ls).getLast? (word ++ rest)).cls = .comment) := by
    intro hcls
    have hpos := Text.byteLength_pos htoken
    refine outside ⟨_, _, token, _⟩ ?_ hcls ⟨Nat.le_refl _, Nat.lt_add_of_pos_right hpos⟩
    rw [Span.place_append, Nat.zero_add]
    exact List.mem_append_right _ List.mem_cons_self
  cases hmode : s'.mode with
  | base =>
      have hread : Mode.read .base (Lexeme.spelled ls).getLast? (word ++ rest) =
          ⟨cls, word.length, .base⟩ := by
        have hword : Word.classOf? (Word.leading (word ++ rest)) = some cls := by
          rw [hlead]
          exact Word.classOf?_of_mem mem
        have hreserved := Mode.readBase_of_reserved separator hword
        rwa [hlead] at hreserved
      rw [hmode, hread] at hlength
      rw [hread]
      obtain ⟨rfl, -⟩ := List.append_inj hinput.symm hlength
      exact ⟨ls, ms', rfl, rfl⟩
  | blockComment => exact absurd (Or.inr (by rw [hmode]; rfl)) hin
  | string quote => exact absurd (Or.inl (by rw [hmode]; rfl)) hin

/-- A lexeme with the text and the style of a reserved word stands by itself. -/
theorem wordAt_of_lexeme {ls ms : List Lexeme} {cls' : TokenClass}
    (mem : (word, cls) ∈ Word.reserved)
    (h : Cuts (next tabSize) s none line (ls ++ ⟨cls', word⟩ :: ms) last)
    (style : cls'.style? = cls.style?) :
    ∃ rest, line = Lexeme.spelled ls ++ (word ++ rest) ∧
      opensWord (Lexeme.spelled ls).getLast? = true ∧
      ∀ c ∈ rest.head?, isWordChar c = false := by
  obtain ⟨s', input, rfl, hcuts⟩ := h.drop_front
  rw [Text.lastOr_none] at hcuts
  obtain ⟨rest, rfl⟩ : ∃ rest, input = word ++ rest := by
    cases hcuts with
    | cons => exact ⟨_, rfl⟩
  have hnonempty := List.append_ne_nil_of_left_ne_nil (Word.ne_nil_of_mem mem) rest
  obtain ⟨token, _, _, -, -, hlexemes, hlength⟩ :=
    exists_first hcuts hnonempty (Word.startsVisible_append mem rest)
  obtain ⟨hlexeme, -⟩ := List.cons.inj hlexemes
  obtain ⟨hcls, rfl⟩ := Lexeme.mk.inj hlexeme
  have hstyled := Word.not_string_or_comment mem style
  rw [hcls] at style hstyled
  refine ⟨rest, rfl, ?_⟩
  cases hmode : s'.mode with
  | base =>
      have hreading := Mode.baseReading_of_ne_nil (Lexeme.spelled ls).getLast? hnonempty
      rw [hmode] at hlength style
      obtain ⟨hopens, hleading⟩ := hreading.reserved mem hlength.symm style
      exact ⟨hopens, (Word.leading_append_iff (Word.isWord_of_mem mem)).mp hleading⟩
  | blockComment => exact absurd (Or.inr (by rw [hmode]; rfl)) hstyled
  | string quote => exact absurd (Or.inl (by rw [hmode]; rfl)) hstyled

end LineState

namespace Cursor

open Mode (opensWord_iff)

variable {line word : Text} {tabSize : Nat} {s s' : LineState} {tokens : List Span} {c' : Cursor}
  {cls : TokenClass}

theorem Reads.wordAt (run : Reads readToken (atStart line tabSize) s tokens c' s')
    (ended : c'.isAtEnd = true) {t : Span} (mem : t ∈ tokens)
    (reserved : (t.text, cls) ∈ Word.reserved) (style : t.cls.style? = cls.style?) :
    line.WordAt t.text t.start t.stop ∧
      ∀ u ∈ tokens, u.cls = .string ∨ u.cls = .comment → ¬ u.Covers t.start := by
  obtain ⟨rfl, -⟩ := run.eq_place ended
  have hcuts := LineState.cuts_readLine tabSize s line
  obtain ⟨front, l, back, hsplit, rfl⟩ := Span.mem_place_iff.mp mem
  rw [hsplit] at hcuts ⊢
  obtain ⟨rest, hline, hopens, hwhole⟩ := LineState.wordAt_of_lexeme reserved hcuts style
  refine ⟨⟨Lexeme.spelled front, rest, ?_, Nat.zero_add _, ?_, opensWord_iff.mp hopens, hwhole⟩,
    fun u hu hcls hcovers => ?_⟩
  · rw [List.append_assoc]
    exact hline
  · rw [Text.byteLength_append, Nat.zero_add]
  · rw [Span.cls_of_covers (Word.ne_nil_of_mem reserved) hu hcovers] at hcls
    exact Word.not_string_or_comment reserved style hcls

theorem Reads.mem_of_wordAt (run : Reads readToken (atStart line tabSize) s tokens c' s')
    (ended : c'.isAtEnd = true) (reserved : (word, cls) ∈ Word.reserved) {start stop : Nat}
    (stands : line.WordAt word start stop)
    (outside : ∀ u ∈ tokens, u.cls = .string ∨ u.cls = .comment → ¬ u.Covers start) :
    ⟨start, stop, word, cls⟩ ∈ tokens := by
  obtain ⟨rfl, -⟩ := run.eq_place ended
  obtain ⟨before, after, hline, rfl, rfl, hbefore, hafter⟩ := stands
  rw [List.append_assoc] at hline
  obtain ⟨front, back, hsplit, rfl⟩ := LineState.exists_word reserved
    (LineState.cuts_readLine tabSize s line) hline (opensWord_iff.mpr hbefore) hafter outside
  refine Span.mem_place_iff.mpr ⟨front, ⟨cls, word⟩, back, hsplit, ?_⟩
  rw [Text.byteLength_append, Nat.zero_add]

/-- **Reserved words are read exactly where they stand by themselves.**  From any state a line can
be read to its end.  Of the tokens that this gives, one is a reserved word at the given offsets, in
its style and with its role, if and only if the word stands by itself there and no string and no
comment covers its start. -/
theorem reserved_word_iff (line : Text) (tabSize : Nat) (s : LineState) :
    (∃ tokens c' s', Reads readToken (atStart line tabSize) s tokens c' s' ∧ c'.isAtEnd = true) ∧
      ∀ tokens c' s', Reads readToken (atStart line tabSize) s tokens c' s' → c'.isAtEnd = true →
        ∀ word cls, (word, cls) ∈ Word.reserved → ∀ start stop,
          (∃ t ∈ tokens, t.start = start ∧ t.stop = stop ∧ t.text = word ∧
              t.cls.style? = cls.style? ∧ t.cls.role? = cls.role?) ↔
            line.WordAt word start stop ∧
              ∀ t ∈ tokens, t.cls = .string ∨ t.cls = .comment → ¬ t.Covers start := by
  constructor
  · exact exists_reads (LineState.advances_next tabSize) readToken_eq s rfl
      (standsAt_atStart line tabSize)
  · intro tokens c' s' run ended word cls reserved start stop
    constructor
    · rintro ⟨t, mem, rfl, rfl, rfl, style, -⟩
      exact run.wordAt ended mem reserved style
    · rintro ⟨stands, outside⟩
      exact ⟨_, run.mem_of_wordAt ended reserved stands outside, rfl, rfl, rfl, rfl, rfl⟩

/-- A line on which a string from the line before ends: the word in the string is no token, the one
in parentheses is. -/
theorem reserved_word_iff_behind_string :
    ∃ tokens c' s', Reads readToken (atStart "if\" (if".toList 4)
        { LineState.start {} with mode := .string '"' } tokens c' s' ∧ c'.isAtEnd = true ∧
      ("if".toList, TokenClass.keyword .opener) ∈ Word.reserved ∧
      (∃ t ∈ tokens, t.start = 5 ∧ t.stop = 7 ∧ t.text = "if".toList ∧
        t.cls.style? = some .keyword ∧ t.cls.role? = some .opener) ∧
      ¬ ∃ t ∈ tokens, t.start = 0 ∧ t.stop = 2 ∧ t.text = "if".toList ∧
        t.cls.style? = some .keyword ∧ t.cls.role? = some .opener := by
  obtain ⟨⟨tokens, c', s', run, ended⟩, iff⟩ := reserved_word_iff "if\" (if".toList 4
    { LineState.start {} with mode := .string '"' }
  have mem : ("if".toList, TokenClass.keyword .opener) ∈ Word.reserved := by decide
  have word_iff := iff tokens c' s' run ended _ _ mem
  refine ⟨tokens, c', s', run, ended, mem, ?_, ?_⟩
  · have stands : Text.WordAt "if\" (if".toList "if".toList 5 7 :=
      ⟨"if\" (".toList, [], by decide, by decide, by decide, opensWord_iff.mp (by decide), by simp⟩
    refine (word_iff 5 7).mpr ⟨stands, ?_⟩
    rw [(run.eq_place ended).1]
    decide +kernel
  · intro h
    obtain ⟨-, outside⟩ := (word_iff 0 2).mp h
    rw [(run.eq_place ended).1] at outside
    revert outside
    decide +kernel

end Cursor

end BlockLayout
