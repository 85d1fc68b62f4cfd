import BlockLayout.Document.State
import BlockLayout.Proofs.Cursor.Lossless
import BlockLayout.Proofs.Token.Cuts
import BlockLayout.Proofs.Token.Reserved
import Mathlib.Data.List.Chain

/-! # The visible text of a line

There are two ways to read a line without its blanks.  A host of a mode passes over blanks before each
token (`Mode.visibleLexemes`); a host of a document reads all tokens, runs of blanks among them, and
drops those that cannot be seen, as the spans of an annotation do.  A token of a document is either a
run of blanks, which leaves the mode and the blocks alone, or what the mode reads there
(`LineState.next_cases`).  So the two hosts are left with the same tokens and the same mode
(`Cuts.sees`).

Main statements: `visible_tokens_eq_visibleLexemes`, `spans_show_line`. -/

namespace BlockLayout

namespace Span

/-- The span without its place. -/
def lexeme (s : Span) : Lexeme := ⟨s.cls, s.text⟩

/-- Some character of the span can be seen. -/
def isVisible (s : Span) : Bool := !s.text.isAllBlank

theorem map_lexeme_filter_place (n : Nat) (lexemes : List Lexeme) :
    ((place n lexemes).filter isVisible).map lexeme =
      lexemes.filter fun l => !l.text.isAllBlank := by
  induction lexemes generalizing n with
  | nil => rfl
  | cons l lexemes ih =>
      rw [place, List.filter_cons, List.filter_cons]
      unfold isVisible at ih ⊢
      split
      · rw [List.map_cons, ih]
        rfl
      · exact ih _

end Span

/-! ### Blanks before a token -/

theorem Mode.Sees.blanks {mode last : Mode} {before : Option Char} {blanks rest : Text}
    {lexemes : List Lexeme} (blank : blanks.isAllBlank = true)
    (tail : Sees mode (Text.lastOr before blanks) rest lexemes last) :
    Sees mode before (blanks ++ rest) lexemes last := by
  induction blanks generalizing before with
  | nil => exact tail
  | cons c t ih =>
      have hblank := Text.isAllBlank_iff.mp blank
      have hlast : Text.lastOr before (c :: t) = Text.lastOr (some c) t :=
        Text.lastOr_append (List.cons_ne_nil c []) before t
      rw [hlast] at tail
      refine .blank (hblank c List.mem_cons_self) (ih (Text.isAllBlank_iff.mpr fun d hd => ?_) tail)
      exact hblank d (List.mem_cons_of_mem c hd)

open LineState (next_cases mode_measure blocks_measure)

/-- Without its blank lexemes a line of a document is what can be seen in the mode. -/
theorem Cuts.sees {tabSize : Nat} {s last : LineState} {before : Option Char} {input : Text}
    {lexemes : List Lexeme} (h : Cuts (LineState.next tabSize) s before input lexemes last) :
    Mode.Sees s.mode before input (lexemes.filter fun l => !l.text.isAllBlank) last.mode := by
  induction h with
  | nil s before => exact .nil s.mode before
  | @cons s next last before cls token rest lexemes nonempty read _ ih =>
      rcases next_cases nonempty read with ⟨hblank, -, rfl⟩ | ⟨hvisible, hread⟩
      · have hlast : Text.lastOr before token = token.getLast? :=
          Option.or_of_isSome (List.getLast?_isSome.mpr nonempty)
        rw [List.filter_cons_of_neg (by simp [hblank])]
        rw [mode_measure, ← hlast] at ih
        exact .blanks hblank ih
      · have hseen := hvisible.isAllBlank_eq_false nonempty
        rw [List.filter_cons_of_pos (by simp [hseen])]
        exact .token nonempty hvisible hread ih

namespace Cursor

variable {line : Text} {tabSize : Nat} {s s' : LineState}

/-- The tokens of a run to the end of a line that can be seen are the lexemes that can be seen in the
mode, and the mode is left the same. -/
theorem Reads.visibleLexemes_eq {tokens : List Span} {c' : Cursor}
    (run : Reads readToken (atStart line tabSize) s tokens c' s') (ended : c'.isAtEnd = true) :
    s.mode.visibleLexemes line = ((tokens.filter Span.isVisible).map Span.lexeme, s'.mode) := by
  obtain ⟨rfl, rfl⟩ := run.eq_place ended
  rw [Span.map_lexeme_filter_place]
  exact (LineState.cuts_readLine tabSize s line).sees.visibleFrom_eq

theorem Reads.blank_token {front : List Span} {c c' : Cursor} {s₁ s₂ : LineState} {cls : TokenClass}
    {text : Text} (run : Reads readToken (atStart line tabSize) s front c s₁)
    (more : c.isAtEnd = false) (token : c.readToken s₁ = (.ok cls, c', s₂))
    (shown : c'.current = .ok text) (blank : text.isAllBlank = true) :
    cls = .plain ∧ s₂.mode = s₁.mode ∧ s₂.blocks = s₁.blocks := by
  have hadvances := LineState.advances_next tabSize
  obtain ⟨after, -, -, htab, hstands, -⟩ :=
    run.standsAt hadvances readToken_eq rfl (standsAt_atStart line tabSize)
  obtain ⟨rest, -, hne, -, -, -, -, hstep⟩ :=
    exists_rest hadvances readToken_eq htab hstands more token shown
  rcases next_cases hne hstep with ⟨-, hcls, rfl⟩ | ⟨hvisible, -⟩
  · exact ⟨hcls, mode_measure _ _ _ _, blocks_measure _ _ _ _⟩
  · rw [hvisible.isAllBlank_eq_false hne] at blank
    cases blank

/-- **Blanks may be passed over or dropped.**  Reading a line of a document to its end, from any state,
and keeping the tokens that can be seen gives the lexemes that can be seen in the mode of the state, and
leaves the same mode; the spans of the line are built from these tokens.  Every token that is dropped is
plain and leaves the mode and the blocks as they were. -/
theorem visible_tokens_eq_visibleLexemes (line : Text) (tabSize : Nat) (s : LineState) :
    (∃ tokens c' s', Reads readToken (atStart line tabSize) s tokens c' s' ∧ c'.isAtEnd = true ∧
      s.mode.visibleLexemes line = ((tokens.filter Span.isVisible).map Span.lexeme, s'.mode) ∧
      ∀ number, (s.annotate tabSize number line).2 = s' ∧
        (s.annotate tabSize number line).1.spans =
          (tokens.filter Span.isVisible).foldr Span.consJoined []) ∧
    (∀ front c s₁ cls c' s₂ text, Reads readToken (atStart line tabSize) s front c s₁ →
      c.isAtEnd = false → c.readToken s₁ = (.ok cls, c', s₂) → c'.current = .ok text →
      text.isAllBlank = true → cls = .plain ∧ s₂.mode = s₁.mode ∧ s₂.blocks = s₁.blocks) := by
  constructor
  · obtain ⟨tokens, c', s', run, ended⟩ :=
      exists_reads (LineState.advances_next tabSize) readToken_eq s rfl (standsAt_atStart line tabSize)
    refine ⟨tokens, c', s', run, ended, run.visibleLexemes_eq ended, fun number => ?_⟩
    obtain ⟨rfl, rfl⟩ := run.eq_place ended
    exact ⟨rfl, rfl⟩
  · intro front c s₁ cls c' s₂ text run more token shown blank
    exact run.blank_token more token shown blank

/-- In a string that the line before left open, the blanks in front are a token by themselves. -/
theorem blanks_before_open_string :
    let s : LineState := ⟨.string '"', .start 4, 0⟩
    let c := atStart "  a\"".toList 4
    ∃ c' s', c.isAtEnd = false ∧ c.readToken s = (.ok .plain, c', s') ∧
      c'.current = .ok "  ".toList ∧ s'.mode = .string '"' ∧ s'.blocks = s.blocks := by
  intro s c
  have hread : c.readToken s = (.ok .plain, { c with position := 2 }, { s with indentation := 2 }) :=
    (readToken_eq c s rfl).trans rfl
  have hshown : Cursor.current { c with position := 2 } = .ok "  ".toList := by rfl
  have hkept := (visible_tokens_eq_visibleLexemes _ 4 s).2 [] c s _ _ _ _ (.nil c s) (by decide) hread
    hshown (by decide)
  exact ⟨_, _, by decide, hread, hshown, hkept.2⟩

end Cursor

/-! ## Spans are the visible text

The spans of a line are what can be seen of it.  `Span.Shows` says so by going through the line: blanks
and the texts of spans take turns.  The tokens of a line that can be seen show it (`shows_place`).
Joining plain ones that touch keeps this (`shows_joined`), leaves all other spans as they are
(`filter_joined`), and leaves no two plain ones that touch (`isChain_joined`).  What is read as plain is
a single character (`Mode.length_of_plain`), so that no plain span has a blank. -/

theorem Text.exists_of_append_eq {t u before after : Text} {c : Char}
    (h : t ++ u = before ++ c :: after) :
    (∃ v, t = before ++ c :: v) ∨ ∃ v, before = t ++ v ∧ u = v ++ c :: after := by
  rcases List.append_eq_append_iff.mp h with ⟨v, hbefore, hu⟩ | ⟨v, ht, hc⟩
  · exact Or.inr ⟨v, hbefore, hu⟩
  · cases v with
    | nil =>
        rw [List.append_nil] at ht
        rw [List.nil_append] at hc
        exact Or.inr ⟨[], by rw [ht, List.append_nil], hc.symm⟩
    | cons d v =>
        obtain ⟨rfl, -⟩ := List.cons.inj hc
        exact Or.inl ⟨v, ht⟩

namespace Span

/-- `Shows n text spans`: blanks and the texts of the spans take turns in the text, whose first
character has the offset `n`, and every span has the offsets of its text. -/
inductive Shows : Nat → Text → List Span → Prop
  | nil (n : Nat) {blanks : Text} (blank : blanks.isAllBlank = true) : Shows n blanks []
  | cons {n : Nat} {blanks rest : Text} {s : Span} {spans : List Span}
      (blank : blanks.isAllBlank = true) (nonempty : s.text ≠ [])
      (start : s.start = n + blanks.byteLength) (stop : s.stop = s.start + s.text.byteLength)
      (tail : Shows s.stop rest spans) : Shows n (blanks ++ (s.text ++ rest)) (s :: spans)

/-- Neither a style nor a punctuation mark. -/
def isPlain (s : Span) : Bool := s.cls == .plain

/-- The spans with plain ones joined where they touch. -/
def joined (spans : List Span) : List Span := spans.foldr consJoined []

variable {n : Nat} {text : Text} {s t : Span} {spans : List Span}

/-! ### What is shown -/

theorem Shows.blanks_append {blanks : Text} (blank : blanks.isAllBlank = true)
    (h : Shows (n + blanks.byteLength) text spans) : Shows n (blanks ++ text) spans := by
  have hblank {more : Text} (hmore : more.isAllBlank = true) : (blanks ++ more).isAllBlank = true := by
    unfold Text.isAllBlank at blank hmore ⊢
    rw [List.all_append, blank, hmore, Bool.and_self]
  cases h with
  | nil _ hmore => exact .nil n (hblank hmore)
  | @cons _ more rest s spans hmore nonempty start stop tail =>
      rw [← List.append_assoc]
      refine .cons (hblank hmore) nonempty ?_ stop tail
      rw [start, Text.byteLength_append, Nat.add_assoc]

/-- The lexemes that can be seen show the text that the lexemes make up. -/
theorem shows_place {lexemes : List Lexeme} (nonempty : ∀ l ∈ lexemes, l.text ≠ []) (n : Nat) :
    Shows n (Lexeme.spelled lexemes) ((place n lexemes).filter isVisible) := by
  induction lexemes generalizing n with
  | nil => exact .nil n rfl
  | cons l lexemes ih =>
      have htail := ih (fun m hm => nonempty m (List.mem_cons_of_mem l hm)) (n + l.text.byteLength)
      rw [place, Lexeme.spelled_cons, List.filter_cons]
      split
      · exact @Shows.cons n [] _ ⟨n, n + l.text.byteLength, l.text, l.cls⟩ _ rfl
          (nonempty l List.mem_cons_self) rfl rfl htail
      · rename_i hblank
        exact .blanks_append (by simpa [isVisible] using hblank) htail

theorem Shows.bounds (h : Shows n text spans) : ∀ s ∈ spans, n ≤ s.start ∧ s.start < s.stop := by
  induction h with
  | nil => exact fun s hs => absurd hs List.not_mem_nil
  | @cons n blanks rest s spans blank nonempty start stop tail ih =>
      have hpos := Text.byteLength_pos nonempty
      intro t ht
      rcases List.mem_cons.mp ht with rfl | ht
      · omega
      · have := ih t ht
        omega

theorem Shows.exists_piece (h : Shows n text spans) : ∀ s ∈ spans, ∃ before after,
    text = before ++ s.text ++ after ∧ s.start = n + before.byteLength ∧
      s.stop = n + (before ++ s.text).byteLength := by
  induction h with
  | nil => exact fun s hs => absurd hs List.not_mem_nil
  | @cons n blanks rest s spans blank nonempty start stop tail ih =>
      intro t ht
      rcases List.mem_cons.mp ht with rfl | ht
      · refine ⟨blanks, rest, by rw [List.append_assoc], start, ?_⟩
        rw [stop, start, Text.byteLength_append, Nat.add_assoc]
      · obtain ⟨before, after, rfl, hstart, hstop⟩ := ih t ht
        refine ⟨blanks ++ (s.text ++ before), after, by simp only [List.append_assoc], ?_, ?_⟩
        · simp only [Text.byteLength_append]
          omega
        · simp only [Text.byteLength_append] at hstop ⊢
          omega

theorem Shows.isBlank_of_not_covers (h : Shows n text spans) {before after : Text} {c : Char}
    (split : text = before ++ c :: after)
    (free : ∀ s ∈ spans, ¬ s.Covers (n + before.byteLength)) : Text.isBlank c = true := by
  induction h generalizing before with
  | nil _ blank =>
      refine Text.isAllBlank_iff.mp blank c ?_
      rw [split]
      exact List.mem_append_right before List.mem_cons_self
  | @cons n blanks rest s spans blank nonempty start stop tail ih =>
      rcases Text.exists_of_append_eq split with ⟨w, rfl⟩ | ⟨w, rfl, hrest⟩
      · exact Text.isAllBlank_iff.mp blank c (List.mem_append_right before List.mem_cons_self)
      rcases Text.exists_of_append_eq hrest with ⟨v, hv⟩ | ⟨v, rfl, htail⟩
      · -- the character is one of the span
        refine absurd ⟨?_, ?_⟩ (free s List.mem_cons_self)
        · rw [start, Text.byteLength_append]
          omega
        · have hpos := Text.byteLength_pos (List.cons_ne_nil c v)
          rw [stop, start, hv, Text.byteLength_append, Text.byteLength_append]
          omega
      · refine ih htail fun t ht => ?_
        have hoffset : s.stop + v.byteLength = n + (blanks ++ (s.text ++ v)).byteLength := by
          simp only [stop, start, Text.byteLength_append]
          omega
        rw [hoffset]
        exact free t (List.mem_cons_of_mem s ht)

/-! ### Joining -/

theorem joined_cons (s : Span) (spans : List Span) :
    joined (s :: spans) = consJoined s (joined spans) := rfl

theorem consJoined_cons (s t : Span) (spans : List Span) : consJoined s (t :: spans) =
    if s.joins t then ⟨s.start, t.stop, s.text ++ t.text, .plain⟩ :: spans else s :: t :: spans := rfl

theorem joins_iff : s.joins t = true ↔ s.stop = t.start ∧ s.cls = .plain ∧ t.cls = .plain := by
  unfold joins
  simp only [Bool.and_eq_true, beq_iff_eq, and_assoc]

theorem shows_consJoined (h : Shows n text (s :: spans)) : Shows n text (consJoined s spans) := by
  cases spans with
  | nil => exact h
  | cons t spans =>
      rw [consJoined_cons]
      split
      · rename_i hjoins
        have htouch := (joins_iff.mp hjoins).1
        cases h with
        | cons blank nonempty start stop tail =>
          cases tail with
          | @cons _ blanks rest _ _ _ _ start' stop' tail' =>
            have hlength : blanks.byteLength = 0 := by omega
            obtain rfl : blanks = [] :=
              Decidable.byContradiction fun hne => Nat.ne_of_gt (Text.byteLength_pos hne) hlength
            rw [List.nil_append, ← List.append_assoc s.text]
            have hstop : t.stop = s.start + (s.text ++ t.text).byteLength := by
              rw [Text.byteLength_append]
              omega
            exact .cons (s := ⟨s.start, t.stop, s.text ++ t.text, .plain⟩) blank
              (List.append_ne_nil_of_left_ne_nil nonempty t.text) start hstop tail'
      · exact h

theorem shows_joined (h : Shows n text spans) : Shows n text (joined spans) := by
  induction h with
  | nil n blank => exact .nil n blank
  | cons blank nonempty start stop _ ih =>
      exact shows_consJoined (.cons blank nonempty start stop ih)

theorem filter_consJoined (s : Span) (spans : List Span) :
    (consJoined s spans).filter (!·.isPlain) = (s :: spans).filter (!·.isPlain) := by
  cases spans with
  | nil => rfl
  | cons t spans =>
      rw [consJoined_cons]
      split
      · rename_i hjoins
        obtain ⟨-, hs, ht⟩ := joins_iff.mp hjoins
        simp [isPlain, hs, ht]
      · rfl

theorem filter_joined (spans : List Span) :
    (joined spans).filter (!·.isPlain) = spans.filter (!·.isPlain) := by
  induction spans with
  | nil => rfl
  | cons s spans ih => rw [joined_cons, filter_consJoined, List.filter_cons, List.filter_cons, ih]

/-- A plain span has no blank. -/
def Clear (s : Span) : Prop := s.cls = .plain → ∀ c ∈ s.text, Text.isBlank c = false

theorem clear_consJoined (hs : s.Clear) (h : ∀ t ∈ spans, t.Clear) :
    ∀ t ∈ consJoined s spans, t.Clear := by
  cases spans with
  | nil => exact fun t ht => List.mem_singleton.mp ht ▸ hs
  | cons u spans =>
      rw [consJoined_cons]
      split
      · rename_i hjoins
        obtain ⟨-, hplain, hplain'⟩ := joins_iff.mp hjoins
        intro t ht
        rcases List.mem_cons.mp ht with rfl | ht
        · intro _ c hc
          rcases List.mem_append.mp hc with hc | hc
          · exact hs hplain c hc
          · exact h u List.mem_cons_self hplain' c hc
        · exact h t (List.mem_cons_of_mem u ht)
      · exact List.forall_mem_cons.mpr ⟨hs, h⟩

theorem clear_joined (h : ∀ t ∈ spans, t.Clear) : ∀ t ∈ joined spans, t.Clear := by
  induction spans with
  | nil => exact fun t ht => absurd ht List.not_mem_nil
  | cons s spans ih =>
      exact clear_consJoined (h s List.mem_cons_self) (ih fun t ht => h t (List.mem_cons_of_mem s ht))

theorem isChain_consJoined (h : spans.IsChain fun s t => s.joins t = false) :
    (consJoined s spans).IsChain fun s t => s.joins t = false := by
  cases spans with
  | nil => exact .singleton s
  | cons t spans =>
      rw [consJoined_cons]
      split
      · rename_i hjoins
        obtain ⟨-, -, ht⟩ := joins_iff.mp hjoins
        rw [List.isChain_cons] at h ⊢
        refine ⟨fun u hu => ?_, h.2⟩
        have hu' := h.1 u hu
        unfold joins at hu' ⊢
        rwa [ht] at hu'
      · rename_i hjoins
        exact .cons_cons (Bool.eq_false_iff.mpr hjoins) h

theorem isChain_joined (spans : List Span) :
    (joined spans).IsChain fun s t => s.joins t = false := by
  induction spans with
  | nil => exact .nil
  | cons s spans ih => exact isChain_consJoined ih

/-- The second span lies behind the first, and not at its end if both are plain. -/
structure Apart (s t : Span) : Prop where
  nonempty : s.start < s.stop
  ordered : s.stop ≤ t.start
  split : s.cls = .plain → t.cls = .plain → s.stop < t.start

instance : Trans Apart Apart Apart where
  trans h h' := by
    have hlt := Nat.lt_of_le_of_lt h.ordered (Nat.lt_of_lt_of_le h'.nonempty h'.ordered)
    exact ⟨h.nonempty, Nat.le_of_lt hlt, fun _ _ => hlt⟩

theorem Shows.pairwise_apart (h : Shows n text spans)
    (chain : spans.IsChain fun s t => s.joins t = false) : spans.Pairwise Apart := by
  rw [← List.isChain_iff_pairwise]
  induction h with
  | nil => exact .nil
  | @cons n blanks rest s spans blank nonempty start stop tail ih =>
      rw [List.isChain_cons] at chain ⊢
      refine ⟨fun t ht => ?_, ih chain.2⟩
      have hpos := Text.byteLength_pos nonempty
      have hordered := (tail.bounds t (List.mem_of_mem_head? ht)).1
      refine ⟨by omega, hordered, fun hs ht' => ?_⟩
      have htouch : s.stop ≠ t.start := by
        intro heq
        have hjoins := joins_iff.mpr ⟨heq, hs, ht'⟩
        rw [chain.1 t ht] at hjoins
        cases hjoins
      omega

end Span

/-! ### Tokens of a line -/

/-- What is read as plain is a single character. -/
theorem Mode.length_of_plain {mode : Mode} {before : Option Char} {input : Text} (nonempty : input ≠ [])
    (plain : (mode.read before input).cls = .plain) : (mode.read before input).length = 1 := by
  cases mode with
  | base =>
      have hreading := baseReading_of_ne_nil before nonempty
      change (readBase before input).cls = .plain at plain
      change (readBase before input).length = 1
      generalize readBase before input = r at hreading plain ⊢
      cases hreading with
      | word _ _ _ _ hword => exact absurd plain (Word.ne_of_classOf? hword (by decide))
      | char => rfl
      | _ => cases plain
  | blockComment => cases plain
  | string quote => cases plain

/-- A blank lexeme is plain, and one that is plain and can be seen has no blank. -/
structure Lexeme.Legible (l : Lexeme) : Prop where
  nonempty : l.text ≠ []
  plain_of_blank : l.text.isAllBlank = true → l.cls = .plain
  clear_of_plain : l.cls = .plain → l.text.isAllBlank = false → ∀ c ∈ l.text, Text.isBlank c = false

theorem Cuts.legible {tabSize : Nat} {s last : LineState} {before : Option Char} {input : Text}
    {lexemes : List Lexeme} (h : Cuts (LineState.next tabSize) s before input lexemes last) :
    ∀ l ∈ lexemes, l.Legible := by
  induction h with
  | nil => exact fun l hl => absurd hl List.not_mem_nil
  | @cons s next last before cls token rest lexemes nonempty read _ ih =>
      refine List.forall_mem_cons.mpr ⟨?_, ih⟩
      rcases LineState.next_cases nonempty read with ⟨hblank, hcls, -⟩ | ⟨hvisible, hread⟩
      · exact ⟨nonempty, fun _ => hcls, fun _ hseen => absurd hblank (Bool.eq_false_iff.mp hseen)⟩
      · have hseen := Bool.eq_false_iff.mp (hvisible.isAllBlank_eq_false nonempty)
        refine ⟨nonempty, fun hblank => absurd hblank hseen, fun hplain _ => ?_⟩
        have hcls : (s.mode.read before (token ++ rest)).cls = .plain := by
          rw [hread]
          exact hplain
        have hlength := Mode.length_of_plain (List.append_ne_nil_of_left_ne_nil nonempty rest) hcls
        rw [hread] at hlength
        obtain ⟨c, rfl⟩ := List.length_eq_one_iff.mp hlength
        intro d hd
        obtain rfl := List.mem_singleton.mp hd
        exact Text.startsVisible_cons.mp hvisible

/-! ### The spans of a line -/

namespace Span

/-- The spans are all that can be seen of a line that was read as the tokens. -/
structure ShowLine (line : Text) (tokens spans : List Span) : Prop where
  /-- They stand in their order, and none reaches into another. -/
  ordered : spans.Pairwise fun s t => s.stop ≤ t.start
  nonempty : ∀ s ∈ spans, s.start < s.stop
  /-- Each has the text of the line between its offsets. -/
  pieces : ∀ s ∈ spans, ∃ before after, line = before ++ s.text ++ after ∧
    s.start = before.byteLength ∧ s.stop = (before ++ s.text).byteLength
  /-- Before, between and after them there are only blanks. -/
  complete : ∀ (before : Text) c after, line = before ++ c :: after →
    (∀ s ∈ spans, ¬ s.Covers before.byteLength) → Text.isBlank c = true
  /-- Every token with a style and every punctuation mark is a span by itself, and no other span has a
  style or a mark. -/
  whole : spans.filter (!·.isPlain) = tokens.filter (!·.isPlain)
  /-- No other span has a blank. -/
  clear : ∀ s ∈ spans, s.cls = .plain → ∀ c ∈ s.text, Text.isBlank c = false
  /-- No two of these touch. -/
  apart : spans.Pairwise fun s t => s.cls = .plain → t.cls = .plain → s.stop < t.start

theorem lexeme_mem_of_mem_place {n : Nat} {lexemes : List Lexeme} {t : Span}
    (h : t ∈ place n lexemes) : t.lexeme ∈ lexemes := by
  obtain ⟨front, l, back, rfl, rfl⟩ := mem_place_iff.mp h
  exact List.mem_append_right front List.mem_cons_self

theorem filter_visible {n : Nat} {lexemes : List Lexeme} (legible : ∀ l ∈ lexemes, l.Legible) :
    ((place n lexemes).filter isVisible).filter (!·.isPlain) =
      (place n lexemes).filter (!·.isPlain) := by
  rw [List.filter_filter]
  refine List.filter_congr fun t ht => ?_
  cases hvisible : t.isVisible with
  | true => rw [Bool.and_true]
  | false =>
      have hblank : t.text.isAllBlank = true := (Bool.not_eq_false' _).mp hvisible
      have hcls := (legible _ (lexeme_mem_of_mem_place ht)).plain_of_blank hblank
      have hplain : t.isPlain = true := beq_iff_eq.mpr hcls
      rw [hplain]
      rfl

/-- The spans of lexemes that a line is cut into show the line. -/
theorem showLine_ofLexemes {lexemes : List Lexeme} (legible : ∀ l ∈ lexemes, l.Legible) :
    ShowLine (Lexeme.spelled lexemes) (place 0 lexemes) (ofLexemes lexemes) := by
  have hshows : Shows 0 (Lexeme.spelled lexemes) (ofLexemes lexemes) :=
    shows_joined (shows_place (fun l hl => (legible l hl).nonempty) 0)
  have hapart := hshows.pairwise_apart (isChain_joined _)
  have hclear : ∀ t ∈ ofLexemes lexemes, t.Clear := by
    refine clear_joined fun t ht hplain => ?_
    obtain ⟨hmem, hvisible⟩ := List.mem_filter.mp ht
    have hseen : t.text.isAllBlank = false := (Bool.not_eq_true' _).mp hvisible
    exact (legible _ (lexeme_mem_of_mem_place hmem)).clear_of_plain hplain hseen
  refine ⟨hapart.imp fun h => h.ordered, fun t ht => (hshows.bounds t ht).2, ?_, ?_, ?_, hclear,
    hapart.imp fun h => h.split⟩
  · simpa only [Nat.zero_add] using hshows.exists_piece
  · intro before c after split free
    rw [← Nat.zero_add before.byteLength] at free
    exact hshows.isBlank_of_not_covers split free
  · exact (filter_joined _).trans (filter_visible legible)

end Span

namespace Cursor

/-- **Spans are exactly what can be seen.**  Whatever the line and the state before it, a run to the end of
the line gives tokens, and the spans of the line's annotation are all that can be seen of the line that
was read as these tokens. -/
theorem spans_show_line (line : Text) (tabSize : Nat) (s : LineState) :
    ∃ tokens c' s', Reads readToken (atStart line tabSize) s tokens c' s' ∧ c'.isAtEnd = true ∧
      ∀ number, (s.annotate tabSize number line).2 = s' ∧
        Span.ShowLine line tokens (s.annotate tabSize number line).1.spans := by
  obtain ⟨tokens, c', s', run, ended⟩ :=
    exists_reads (LineState.advances_next tabSize) readToken_eq s rfl (standsAt_atStart line tabSize)
  refine ⟨tokens, c', s', run, ended, fun number => ?_⟩
  obtain ⟨rfl, rfl⟩ := run.eq_place ended
  have hcuts := LineState.cuts_readLine tabSize s line
  have hshow := Span.showLine_ofLexemes hcuts.legible
  rw [hcuts.spelled_eq] at hshow
  exact ⟨rfl, hshow⟩

end Cursor

end BlockLayout
