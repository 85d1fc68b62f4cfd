import BlockLayout.Proofs.Cursor.Opaque
import BlockLayout.Proofs.Cursor.OpenModes
import BlockLayout.Proofs.Cursor.VisibleText
import BlockLayout.Proofs.Document.Keywords
import BlockLayout.Proofs.Document.View
import Mathlib.Data.List.Infix

/-! # How far a block comment reaches

A block comment ends with the first end mark behind what opened it, and without one reaches to the end of
the line and goes on with the next (`Mode.CommentReaches`).  The star of the opening mark is not looked at
for it.

Reading on in a comment, a line without an end mark is read as blanks and comment, changes no block and
leaves the comment open (`Cuts.comment_open`), and so do any number of such lines
(`LineState.annotateLines_comment`).  On a line with an end mark the comment ends with the first one
(`Cursor.exists_reads_comment`).

Main statement: `comment_ends_at_first_mark`. -/

namespace BlockLayout

namespace Text

variable {mark t : Text} {n : Nat}

/-- The mark stands at the place, and nowhere before it. -/
def FirstAt (mark t : Text) (n : Nat) : Prop := mark <+: t.drop n ∧ ∀ m < n, ¬ mark <+: t.drop m

instance (mark t : Text) (n : Nat) : Decidable (FirstAt mark t n) :=
  inferInstanceAs (Decidable (_ ∧ ∀ m < n, ¬ _))

theorem FirstAt.exists_body (h : FirstAt mark t n) (nonempty : mark ≠ []) :
    ∃ body rest, t = body ++ (mark ++ rest) ∧ body.length = n ∧ FirstBehind mark body := by
  obtain ⟨⟨rest, hrest⟩, first⟩ := h
  have hlength : (t.take n).length = n := by
    refine List.length_take_of_le (Nat.le_of_lt (Nat.lt_of_not_le fun hle => nonempty ?_))
    rw [List.drop_eq_nil_of_le hle] at hrest
    exact (List.append_eq_nil_iff.mp hrest).1
  have hsplit : t = t.take n ++ (mark ++ rest) := by rw [hrest, List.take_append_drop]
  have hstart : t.take n ++ mark <+: t := ⟨rest, by rw [List.append_assoc, ← hsplit]⟩
  refine ⟨t.take n, rest, hsplit, hlength, fun m hm hmark => ?_⟩
  exact first m (hlength ▸ hm) (hmark.trans (hstart.drop m))

theorem FirstBehind.of_append {front : Text} (h : FirstBehind mark (front ++ t)) :
    FirstBehind mark t := by
  induction front with
  | nil => exact h
  | cons c front ih => exact ih h.tail

theorem FirstAt.exists_content (h : FirstAt mark t n) (nonempty : mark ≠ [])
    (visible : mark.StartsVisible) :
    ∃ blanks content rest, t = blanks ++ (content ++ mark ++ rest) ∧ blanks.isAllBlank = true ∧
      StartsVisible (content ++ mark) ∧ FirstBehind mark content ∧
      t.take (n + mark.length) = blanks ++ (content ++ mark) := by
  obtain ⟨body, rest, rfl, rfl, hbody⟩ := h.exists_body nonempty
  have hsplit := leadingBlanks_append_trimStart body
  refine ⟨body.leadingBlanks, body.trimStart, rest, ?_, isAllBlank_leadingBlanks body, ?_, ?_, ?_⟩
  · rw [List.append_assoc, ← List.append_assoc body.leadingBlanks, hsplit]
  · cases hcontent : body.trimStart with
    | nil => exact visible
    | cons c u => exact (hcontent ▸ startsVisible_trimStart body).append (List.cons_ne_nil c u)
  · rw [← hsplit] at hbody
    exact hbody.of_append
  · rw [← List.append_assoc body.leadingBlanks, hsplit, ← List.append_assoc]
    exact List.take_left' (List.length_append ..)

end Text

open Text (FirstAt FirstBehind)

namespace Mode

/-- Of a block comment that is read on from the start of `rest`, the text is `token`, and the mode behind
it is `next`. -/
structure CommentReaches (rest token : Text) (next : Mode) : Prop where
  /-- The comment ends with the first end mark. -/
  closed : ∀ n, FirstAt blockCommentMarks.2 rest n → token = rest.take (n + 2) ∧ next = base
  /-- Without an end mark the comment has the whole rest, and is left open. -/
  unclosed : ¬ blockCommentMarks.2 <:+: rest → token = rest ∧ next = blockComment

theorem commentReaches_commentExtent (rest : Text) :
    CommentReaches rest (rest.take (commentExtent false rest).1) (commentExtent false rest).2 := by
  constructor
  · intro n first
    obtain ⟨body, behind, rfl, rfl, hbody⟩ := first.exists_body (by decide)
    have hextent : commentExtent false (body ++ (blockCommentMarks.2 ++ behind)) =
        (body.length + 2, base) := commentExtent_body behind hbody (fun h => by cases h)
    rw [hextent]
    exact ⟨rfl, rfl⟩
  · intro free
    rw [commentExtent_unclosed free (fun h => by cases h), List.take_length]
    exact ⟨rfl, rfl⟩

theorem length_take_commentExtent (rest : Text) :
    (rest.take (commentExtent false rest).1).length = (commentExtent false rest).1 :=
  List.length_take_of_le (commentExtent_le false rest)

end Mode

/-! ### A line without the end mark -/

namespace LineState

variable {tabSize : Nat} {s last : LineState} {before : Option Char} {token rest : Text}
  {cls : TokenClass}

theorem blocks_next (nonempty : token ≠ [])
    (read : next tabSize s before (token ++ rest) = ⟨cls, token.length, last⟩)
    (neutral : cls.role? = none) : last.blocks = s.blocks := by
  obtain ⟨mode, hstate⟩ :=
    state_next tabSize s before (List.append_ne_nil_of_left_ne_nil nonempty rest)
  rw [read] at hstate
  have hlast : last = (s.measure tabSize before (token ++ rest)).pass cls mode := hstate
  rw [hlast, blocks_pass, neutral, blocks_measure]
  rfl

theorem next_comment_open (nonempty : token ≠ [])
    (read : next tabSize s before (token ++ rest) = ⟨cls, token.length, last⟩)
    (opened : s.mode = .blockComment) (free : ¬ blockCommentMarks.2 <:+: token ++ rest) :
    last.mode = .blockComment ∧ last.blocks = s.blocks ∧
      (token.isAllBlank = false → cls = .comment) := by
  rcases next_cases nonempty read with ⟨hblank, -, rfl⟩ | ⟨-, hread⟩
  · refine ⟨(mode_measure _ _ _ _).trans opened, blocks_measure _ _ _ _, fun hseen => ?_⟩
    rw [hblank] at hseen
    cases hseen
  · have hextent : Mode.commentExtent false (token ++ rest) = _ :=
      Mode.commentExtent_unclosed free (fun h => by cases h)
    rw [opened] at hread
    simp only [Mode.read, Mode.readComment, hextent, Reading.mk.injEq] at hread
    obtain ⟨rfl, -, hmode⟩ := hread
    exact ⟨hmode.symm, blocks_next nonempty read rfl, fun _ => rfl⟩

end LineState

theorem Cuts.comment_open {tabSize : Nat} {s last : LineState} {before : Option Char} {input : Text}
    {lexemes : List Lexeme} (h : Cuts (LineState.next tabSize) s before input lexemes last)
    (opened : s.mode = .blockComment) (free : ¬ blockCommentMarks.2 <:+: input) :
    last.mode = .blockComment ∧ last.blocks = s.blocks ∧
      ∀ l ∈ lexemes, l.text.isAllBlank = false → l.cls = .comment := by
  induction h with
  | nil => exact ⟨opened, rfl, fun l hl => absurd hl List.not_mem_nil⟩
  | @cons s next last before cls token rest lexemes nonempty read _ ih =>
      obtain ⟨hmode, hblocks, hcomment⟩ := LineState.next_comment_open nonempty read opened free
      obtain ⟨hlast, hkept, hcomments⟩ :=
        ih hmode fun hmark => free (hmark.trans (List.suffix_append token rest).isInfix)
      exact ⟨hlast, hkept.trans hblocks, List.forall_mem_cons.mpr ⟨hcomment, hcomments⟩⟩

theorem Span.joined_eq_self {spans : List Span} (styled : ∀ s ∈ spans, s.cls ≠ .plain) :
    joined spans = spans := by
  induction spans with
  | nil => rfl
  | cons s spans ih =>
      rw [joined_cons, ih fun t ht => styled t (List.mem_cons_of_mem s ht)]
      cases spans with
      | nil => rfl
      | cons t spans =>
          rw [consJoined_cons, if_neg]
          intro hjoins
          exact styled s List.mem_cons_self (joins_iff.mp hjoins).2.1

theorem Span.cls_of_mem_ofLexemes {lexemes : List Lexeme} {cls : TokenClass} (styled : cls ≠ .plain)
    (same : ∀ l ∈ lexemes, l.text.isAllBlank = false → l.cls = cls) :
    ∀ s ∈ ofLexemes lexemes, s.cls = cls := by
  have hvisible : ∀ s ∈ (place 0 lexemes).filter isVisible, s.cls = cls := by
    intro s hs
    obtain ⟨hmem, hseen⟩ := List.mem_filter.mp hs
    exact same _ (lexeme_mem_of_mem_place hmem) ((Bool.not_eq_true' _).mp hseen)
  have hjoined : ofLexemes lexemes = (place 0 lexemes).filter isVisible :=
    joined_eq_self fun s hs => by rw [hvisible s hs]; exact styled
  rw [hjoined]
  exact hvisible

namespace LineState

variable (tabSize : Nat) {s : LineState} (number : Nat) {lines : List Text}

theorem take_annotateLines (s : LineState) (lines : List Text) (k : Nat) :
    (s.annotateLines tabSize number lines).1.take k =
      (s.annotateLines tabSize number (lines.take k)).1 := by
  induction lines generalizing s number k with
  | nil => rw [List.take_nil]; exact List.take_nil
  | cons line lines ih =>
      cases k with
      | zero => rfl
      | succ k => exact congrArg (_ :: ·) (ih (number + 1) (s.annotate tabSize number line).2 k)

/-- Lines without an end mark, in a comment. -/
theorem annotateLines_comment (opened : s.mode = .blockComment)
    (free : ∀ line ∈ lines, ¬ blockCommentMarks.2 <:+: line) :
    (s.annotateLines tabSize number lines).2.mode = .blockComment ∧
      (s.annotateLines tabSize number lines).2.blocks = s.blocks ∧
      ∀ a ∈ (s.annotateLines tabSize number lines).1, a.mode = .blockComment ∧
        a.depth = s.blocks.height ∧ ∀ span ∈ a.spans, span.cls = .comment := by
  induction lines generalizing s number with
  | nil => exact ⟨opened, rfl, fun a ha => absurd ha List.not_mem_nil⟩
  | cons line lines ih =>
      obtain ⟨hmode, hblocks, hcomment⟩ :=
        (cuts_readLine tabSize s line).comment_open opened (free line List.mem_cons_self)
      obtain ⟨hlast, hkept, hlines⟩ :=
        ih (number + 1) hmode fun l hl => free l (List.mem_cons_of_mem line hl)
      have hspans := Span.cls_of_mem_ofLexemes (by decide) hcomment
      rw [hblocks] at hkept hlines
      exact ⟨hlast, hkept, List.forall_mem_cons.mpr
        ⟨⟨hmode, congrArg Blocks.height hblocks, hspans⟩, hlines⟩⟩

/-! ### A line with the end mark -/

/-- In a comment, a token from a visible character to the first end mark. -/
theorem next_comment_closed (before : Option Char) {body : Text} (rest : Text)
    (opened : s.mode = .blockComment) (first : FirstBehind blockCommentMarks.2 body)
    (visible : Text.StartsVisible (body ++ blockCommentMarks.2)) :
    ∃ last, next tabSize s before (body ++ blockCommentMarks.2 ++ rest) =
        ⟨.comment, (body ++ blockCommentMarks.2).length, last⟩ ∧
      last.mode = .base ∧ last.blocks = s.blocks := by
  have hnonempty : body ++ blockCommentMarks.2 ≠ [] :=
    List.append_ne_nil_of_right_ne_nil body (by decide)
  obtain ⟨c, t, hct⟩ := List.exists_cons_of_ne_nil hnonempty
  have hread : s.mode.read before (body ++ blockCommentMarks.2 ++ rest) =
      ⟨.comment, (body ++ blockCommentMarks.2).length, .base⟩ := by
    rw [opened, List.append_assoc, List.length_append, ← Nat.zero_add (body.length + _)]
    unfold Mode.read Mode.readComment
    simp only
    exact congrArg (fun extent : Nat × Mode => Reading.mk .comment (0 + extent.1) extent.2)
      (Mode.commentExtent_body rest first (fun h => by cases h))
  have hnext : next tabSize s before (body ++ blockCommentMarks.2 ++ rest) =
      ⟨.comment, (body ++ blockCommentMarks.2).length,
        (s.measure tabSize before (body ++ blockCommentMarks.2 ++ rest)).pass .comment .base⟩ := by
    rw [hct] at visible hread ⊢
    rw [List.cons_append] at hread ⊢
    rw [next_visible tabSize s before (t ++ rest) (Text.startsVisible_cons.mp visible), hread]
  exact ⟨_, hnext, mode_pass _ _ _, blocks_next hnonempty hnext rfl⟩

end LineState

namespace Cursor

variable {c : Cursor} {before rest line : Text} {tabSize : Nat} {s : LineState}

/-- In a comment, a call at a visible character takes the text up to the end of the first end mark. -/
theorem StandsAt.exists_reads_comment {body : Text} (tab : c.tabSize = tabSize)
    (stands : c.StandsAt before (body ++ blockCommentMarks.2 ++ rest))
    (opened : s.mode = .blockComment) (first : FirstBehind blockCommentMarks.2 body)
    (visible : Text.StartsVisible (body ++ blockCommentMarks.2)) :
    ∃ token c' s', Reads readToken c s [token] c' s' ∧ token.text = body ++ blockCommentMarks.2 ∧
      token.cls = .comment ∧ s'.mode = .base ∧ s'.blocks = s.blocks := by
  obtain ⟨s', hread, hmode, hblocks⟩ :=
    LineState.next_comment_closed tabSize before.getLast? rest opened first visible
  obtain ⟨c', -, -, hcons⟩ := stands.exists_cons readToken_eq tab
    (List.append_ne_nil_of_right_ne_nil body (by decide)) hread
  exact ⟨_, c', s', hcons (.nil c' s'), rfl, rfl, hmode, hblocks⟩

/-- In a comment, reading from the start of a line comes to the end of the first end mark. -/
theorem exists_reads_comment (tabSize : Nat) (opened : s.mode = .blockComment) {n : Nat}
    (first : FirstAt blockCommentMarks.2 line n) :
    ∃ tokens c' s', Reads readToken (atStart line tabSize) s tokens c' s' ∧
      (tokens.map Span.text).flatten = line.take (n + 2) ∧ s'.mode = .base ∧ s'.blocks = s.blocks ∧
      ∀ t ∈ tokens, t.text.isAllBlank = false → t.cls = .comment := by
  obtain ⟨blanks, content, rest, hline, hblank, hvisible, hcontent, htake⟩ :=
    first.exists_content (by decide) (Text.startsVisible_cons.mpr (by decide))
  have hstart := standsAt_atStart line tabSize
  rw [show n + 2 = n + blockCommentMarks.2.length from rfl, htake]
  rw [hline] at hstart ⊢
  by_cases hnil : blanks = []
  · subst hnil
    obtain ⟨token, c', s', hrun, htext, hcls, hmode, hblocks⟩ :=
      hstart.exists_reads_comment rfl opened hcontent hvisible
    exact ⟨[token], c', s', hrun, (List.append_nil _).trans htext, hmode, hblocks,
      fun t ht _ => List.mem_singleton.mp ht ▸ hcls⟩
  · -- the blanks are a token by themselves
    have hvisible' := hvisible.append (List.append_ne_nil_of_right_ne_nil content (by decide)) (u := rest)
    obtain ⟨d, htab, hstands, hcons⟩ := hstart.exists_cons readToken_eq rfl hnil
      (LineState.next_blanks tabSize s none hnil hblank hvisible')
    obtain ⟨token, c', s', hrun, htext, hcls, hmode, hblocks⟩ :=
      hstands.exists_reads_comment htab ((LineState.mode_measure ..).trans opened) hcontent hvisible
    refine ⟨_, c', s', hcons hrun, ?_, hmode, hblocks.trans (LineState.blocks_measure ..), ?_⟩
    · simp [htext]
    · refine List.forall_mem_cons.mpr ⟨fun hseen => ?_, fun t ht _ => List.mem_singleton.mp ht ▸ hcls⟩
      rw [hblank] at hseen
      cases hseen

/-- **Block comments end at their first end mark.**  In a block comment, and behind the mark that opens
one in ordinary code, a call takes the text up to the end of the first end mark and leaves ordinary code;
if there is none it takes all of the rest and leaves the comment open.  So for lines read from within a
comment: as long as no line has an end mark, the comment stays open, no block changes and all spans are
comments; and of a line with an end mark, all up to the end of the first one is read as blanks and
comment, and what follows in ordinary code. -/
theorem comment_ends_at_first_mark :
    (c.StandsAt before rest →
      ∃ token next, c.Takes .blockComment .comment token next ∧
        Mode.CommentReaches rest token next) ∧
    (c.StandsAt before ('/' :: '*' :: rest) →
      ∃ token next, c.Takes .base .comment ('/' :: '*' :: token) next ∧
        Mode.CommentReaches rest token next) ∧
    ∀ s : LineState, s.mode = .blockComment → ∀ tabSize,
      (∀ number lines k, (∀ line ∈ lines.take k, ¬ blockCommentMarks.2 <:+: line) →
        (s.annotateLines tabSize number (lines.take k)).2.mode = .blockComment ∧
        (s.annotateLines tabSize number (lines.take k)).2.blocks = s.blocks ∧
        ∀ a ∈ (s.annotateLines tabSize number lines).1.take k, a.mode = .blockComment ∧
          a.depth = s.blocks.height ∧ ∀ span ∈ a.spans, span.cls = .comment) ∧
      ∀ line n, FirstAt blockCommentMarks.2 line n →
        ∃ tokens c' s', Reads readToken (atStart line tabSize) s tokens c' s' ∧
          (tokens.map Span.text).flatten = line.take (n + 2) ∧ s'.mode = .base ∧
          s'.blocks = s.blocks ∧ ∀ t ∈ tokens, t.text.isAllBlank = false → t.cls = .comment := by
  refine ⟨fun stands => ?_, fun stands => ?_, fun s opened tabSize => ⟨?_, ?_⟩⟩
  · refine ⟨_, _, stands.takes_iff.mpr ⟨List.take_prefix _ rest, ?_⟩,
      Mode.commentReaches_commentExtent rest⟩
    simp only [Mode.read, Mode.readComment, Mode.length_take_commentExtent, Nat.zero_add]
  · refine ⟨_, _, stands.takes_iff.mpr ⟨?_, ?_⟩, Mode.commentReaches_commentExtent rest⟩
    · exact (List.prefix_append_right_inj ['/', '*']).mpr (List.take_prefix _ rest)
    · rw [List.length_cons, List.length_cons, Mode.length_take_commentExtent, Nat.add_assoc,
        Nat.add_comm]
      rfl
  · intro number lines k free
    rw [LineState.take_annotateLines]
    exact LineState.annotateLines_comment tabSize number opened free
  · intro line n first
    exact exists_reads_comment tabSize opened first

/-- Behind two bytes, a comment that a second star ends; and one whose opening star is followed by a slash.
Then two lines within a comment, one of them with a word and one with a star and a slash apart, and a line
on which the comment ends. -/
theorem comment_ends_behind_second_star :
    let c : Cursor := ⟨"é a**/b*/".toList, 2, 0, 4⟩
    let d : Cursor := ⟨"x/*/ y".toList, 1, 0, 4⟩
    let s : LineState := ⟨.blockComment, ⟨-4, [0]⟩, 0⟩
    let lines := ["  if a".toList, "* /".toList, "\t**/ end".toList]
    (c.StandsAt "é".toList " a**/b*/".toList ∧ c.Takes .blockComment .comment " a**/".toList .base) ∧
      (d.StandsAt "x".toList "/*/ y".toList ∧ d.Takes .base .comment "/*/ y".toList .blockComment) ∧
      (∀ line ∈ lines.take 2, ¬ blockCommentMarks.2 <:+: line) ∧
      (s.annotateLines 4 1 (lines.take 2)).2.mode = .blockComment ∧
      FirstAt blockCommentMarks.2 "\t**/ end".toList 2 ∧
      ∃ tokens c' s', Reads readToken (atStart "\t**/ end".toList 4) s tokens c' s' ∧
        (tokens.map Span.text).flatten = "\t**/".toList ∧ s'.mode = .base := by
  intro c d s lines
  have hc : c.StandsAt "é".toList " a**/b*/".toList := ⟨by decide, by decide⟩
  have hd : d.StandsAt "x".toList "/*/ y".toList := ⟨by decide, by decide⟩
  obtain ⟨token, next, htakes, hreaches⟩ := comment_ends_at_first_mark.1 hc
  obtain ⟨rfl, rfl⟩ := hreaches.closed 3 (by decide)
  obtain ⟨-, hopens, hlines⟩ := @comment_ends_at_first_mark d "x".toList "/ y".toList
  obtain ⟨token, next, htakes', hreaches'⟩ := hopens hd
  obtain ⟨rfl, rfl⟩ := hreaches'.unclosed (by decide)
  have free : ∀ line ∈ lines.take 2, ¬ blockCommentMarks.2 <:+: line := by decide
  have first : FirstAt blockCommentMarks.2 "\t**/ end".toList 2 := by decide
  obtain ⟨hfree, hfirst⟩ := hlines s rfl 4
  obtain ⟨tokens, c', s', hrun, htext, hmode, -⟩ := hfirst _ 2 first
  exact ⟨⟨hc, htakes⟩, ⟨hd, htakes'⟩, free, (hfree 1 lines 2 free).1, first, tokens, c', s', hrun, htext,
    hmode⟩

end Cursor

end BlockLayout
