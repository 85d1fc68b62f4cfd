import BlockLayout.Document.State
import BlockLayout.Proofs.Text.Pieces
import BlockLayout.Proofs.Token.Cuts

/-! # Reading in a document

What one token does to the state of a document.  `LineState.next` either takes a run of blanks
(`next_blanks`) or reads in the mode of the state (`next_visible`); no other lemma unfolds it.  Given
the token, `next_cases` tells the two apart.  Both kinds of step advance, so a line is cut by `Cuts` in
any state.

Main statement: `annotateLines_eq_iff_alike`. -/

namespace BlockLayout

namespace LineState

variable (tabSize : Nat) (s : LineState) (before : Option Char)

@[simp] theorem mode_measure (input : Text) : (s.measure tabSize before input).mode = s.mode := by
  unfold measure
  split <;> rfl

@[simp] theorem blocks_measure (input : Text) :
    (s.measure tabSize before input).blocks = s.blocks := by
  unfold measure
  split <;> rfl

@[simp] theorem mode_pass (cls : TokenClass) (mode : Mode) : (s.pass cls mode).mode = mode := by
  unfold pass
  split <;> rfl

@[simp] theorem indentation_pass (cls : TokenClass) (mode : Mode) :
    (s.pass cls mode).indentation = s.indentation := by
  unfold pass
  split <;> rfl

theorem next_blanks {blanks rest : Text} (nonempty : blanks ≠ [])
    (blank : blanks.isAllBlank = true) (visible : rest.StartsVisible) :
    next tabSize s before (blanks ++ rest) =
      ⟨.plain, blanks.length, s.measure tabSize before (blanks ++ rest)⟩ := by
  unfold next
  simp only [Text.leadingBlanks_append blank visible]

theorem next_of_leadingBlanks {input : Text} (h : input.leadingBlanks ≠ []) :
    next tabSize s before input =
      ⟨.plain, input.leadingBlanks.length, s.measure tabSize before input⟩ := by
  have hread := next_blanks tabSize s before h (Text.isAllBlank_leadingBlanks input)
    (Text.startsVisible_trimStart input)
  rwa [Text.leadingBlanks_append_trimStart] at hread

theorem next_visible {c : Char} (t : Text) (visible : Text.isBlank c = false) :
    next tabSize s before (c :: t) =
      ⟨(s.mode.read before (c :: t)).cls, (s.mode.read before (c :: t)).length,
        (s.measure tabSize before (c :: t)).pass (s.mode.read before (c :: t)).cls
          (s.mode.read before (c :: t)).state⟩ := by
  unfold next
  simp only [Text.leadingBlanks_eq_nil (Text.startsVisible_cons.mpr visible), mode_measure]

/-- A token is a run of blanks, or what the mode of the state reads. -/
theorem next_cases {tabSize : Nat} {s s' : LineState} {before : Option Char} {cls : TokenClass}
    {token rest : Text} (nonempty : token ≠ [])
    (read : next tabSize s before (token ++ rest) = ⟨cls, token.length, s'⟩) :
    (token.isAllBlank = true ∧ cls = .plain ∧ s' = s.measure tabSize before (token ++ rest)) ∨
      (token.StartsVisible ∧ s.mode.read before (token ++ rest) = ⟨cls, token.length, s'.mode⟩) := by
  rcases Text.leadingBlanks_ne_nil_or (List.append_ne_nil_of_left_ne_nil nonempty rest) with
    hlead | ⟨c, t, hct, hc⟩
  · left
    rw [next_of_leadingBlanks tabSize s before hlead] at read
    obtain ⟨hcls, hlength, hstate⟩ := Reading.mk.inj read
    have htoken : (token ++ rest).leadingBlanks = token :=
      Text.eq_of_isPrefix (List.takeWhile_prefix _) (List.prefix_append token rest) hlength
    refine ⟨?_, hcls.symm, hstate.symm⟩
    rw [← htoken]
    exact Text.isAllBlank_leadingBlanks _
  · right
    have hvisible : (token ++ rest).StartsVisible := by
      rw [hct]
      exact Text.startsVisible_cons.mpr hc
    refine ⟨hvisible.of_append nonempty, ?_⟩
    rw [hct] at read ⊢
    rw [next_visible tabSize s before t hc] at read
    obtain ⟨hcls, hlength, hstate⟩ := Reading.mk.inj read
    rw [← hstate, mode_pass, ← hcls, ← hlength]

theorem state_next {input : Text} (h : input ≠ []) :
    ∃ mode, (next tabSize s before input).state =
      (s.measure tabSize before input).pass (next tabSize s before input).cls mode := by
  rcases Text.leadingBlanks_ne_nil_or h with hblank | ⟨c, t, rfl, hc⟩
  · rw [next_of_leadingBlanks tabSize s before hblank]
    exact ⟨_, rfl⟩
  · rw [next_visible tabSize s before t hc]
    exact ⟨_, rfl⟩

theorem next_fits {input : Text} (h : input ≠ []) : (next tabSize s before input).Fits input := by
  rcases Text.leadingBlanks_ne_nil_or h with hblank | ⟨c, t, rfl, hc⟩
  · have hsplit := Text.leadingBlanks_append_trimStart input
    have hlen := congrArg List.length hsplit
    rw [List.length_append] at hlen
    rw [next_of_leadingBlanks tabSize s before hblank]
    exact ⟨List.length_pos_iff.mpr hblank, by simp only; omega⟩
  · rw [next_visible tabSize s before t hc]
    exact Mode.read_fits s.mode before h

theorem advances_next : Advances (next tabSize) := fun s before _ h => next_fits tabSize s before h

theorem cuts_readLine (line : Text) :
    Cuts (next tabSize) s none line (s.readLine tabSize line).1 (s.readLine tabSize line).2 :=
  cuts_cutLine (advances_next tabSize) s none line

theorem readLine_visible {c : Char} (t : Text) (visible : Text.isBlank c = false) :
    ∃ token rest, (s.readLine tabSize (c :: t)).1 =
        ⟨(s.mode.read none (c :: t)).cls, token⟩ :: rest ∧
      token = (c :: t).take (s.mode.read none (c :: t)).length ∧ token.isAllBlank = false := by
  obtain ⟨token, rest, cls, last, hinput, htoken, hstep⟩ :=
    (advances_next tabSize).exists_token s none (List.cons_ne_nil c t)
  have hread := (next_visible tabSize s none t visible).symm.trans hstep
  have hcls : (s.mode.read none (c :: t)).cls = cls := congrArg Reading.cls hread
  have hlen : (s.mode.read none (c :: t)).length = token.length := congrArg Reading.length hread
  have hseen := Text.isAllBlank_eq_false visible htoken hinput
  rw [hcls, hlen]
  rw [hinput] at hstep ⊢
  unfold readLine
  rw [cutLine_append htoken hstep]
  exact ⟨token, _, rfl, List.take_left.symm, hseen⟩

/-- A line that starts with blanks: they are its first lexeme, and the line is measured there. -/
theorem readLine_blanks {blanks rest : Text} (nonempty : blanks ≠ [])
    (blank : blanks.isAllBlank = true) (visible : rest.StartsVisible) :
    s.readLine tabSize (blanks ++ rest) =
      (⟨.plain, blanks⟩ ::
          (cutLine (next tabSize) { s with indentation := (blanks ++ rest).columns tabSize }
            blanks.getLast? rest).1,
        (cutLine (next tabSize) { s with indentation := (blanks ++ rest).columns tabSize }
          blanks.getLast? rest).2) :=
  cutLine_append nonempty (next_blanks tabSize s none nonempty blank visible)

end LineState

/-! ## States that read alike

What a token is read as depends on the mode and, for the character before it, on whether that
character belongs to a word and whether it lets a word start (`Mode.SameSide`); the number of open
blocks goes along by itself.  Two states that agree in mode and height are `LineState.Alike`: they
cut every line into the same lexemes and stay alike (`Alike.cutLine`), whatever their columns are.

Leading blanks are one lexeme of their own, and the rest of the line is read as if it stood at the
margin (`readLine_trimStart`). -/

namespace Mode

/-- After the one character words start and go on as after the other. -/
def SameSide (before before' : Option Char) : Prop :=
  isAfterWord before = isAfterWord before' ∧ opensWord before = opensWord before'

theorem SameSide.refl (before : Option Char) : SameSide before before := ⟨rfl, rfl⟩

theorem read_congr {before before' : Option Char} (h : SameSide before before') (mode : Mode)
    (input : Text) : read mode before input = read mode before' input := by
  have hnumber : readNumber? before = readNumber? before' := by
    funext input
    unfold readNumber?
    rw [h.1]
  have hword : readWord? before = readWord? before' := by
    funext input
    unfold readWord?
    rw [h.1, h.2]
  cases mode with
  | base =>
      simp only [read]
      unfold readBase
      rw [hnumber, hword]
  | blockComment => rfl
  | string quote => rfl

theorem sameSide_replicate (n : Nat) : SameSide (List.replicate n ' ').getLast? none := by
  rw [List.getLast?_replicate]
  split
  · exact SameSide.refl none
  · exact ⟨by decide, by decide⟩

end Mode

theorem Blocks.height_apply {b b' : Blocks} (h : b.height = b'.height) (role : KeywordRole)
    (m n : Nat) : (b.apply role m).height = (b'.apply role n).height := by
  obtain ⟨root, opened⟩ := b
  obtain ⟨root', opened'⟩ := b'
  simp only [height, Nat.add_right_cancel_iff] at h
  cases role <;> cases opened <;> cases opened' <;> simp_all [apply, height]

namespace LineState

open Mode

/-- The states agree in mode and in the number of open blocks. -/
structure Alike (s t : LineState) : Prop where
  mode : s.mode = t.mode
  height : s.blocks.height = t.blocks.height

variable {s t : LineState} (tabSize tabSize' : Nat) {before before' : Option Char}

theorem Alike.refl (s : LineState) : s.Alike s := ⟨rfl, rfl⟩

theorem Alike.measure (h : s.Alike t) (input : Text) :
    (s.measure tabSize before input).Alike (t.measure tabSize' before' input) := by
  constructor
  · rw [mode_measure, mode_measure]
    exact h.mode
  · rw [blocks_measure, blocks_measure]
    exact h.height

theorem Alike.pass (h : s.Alike t) (cls : TokenClass) (mode : Mode) :
    (s.pass cls mode).Alike (t.pass cls mode) := by
  constructor
  · rw [mode_pass, mode_pass]
  · unfold LineState.pass
    split
    · exact Blocks.height_apply h.height _ _ _
    · exact h.height

theorem Alike.next (h : s.Alike t) (side : SameSide before before') {input : Text}
    (nonempty : input ≠ []) :
    (next tabSize s before input).cls = (next tabSize' t before' input).cls ∧
      (next tabSize s before input).length = (next tabSize' t before' input).length ∧
      (next tabSize s before input).state.Alike (next tabSize' t before' input).state := by
  rcases Text.leadingBlanks_ne_nil_or nonempty with hblank | ⟨c, u, rfl, hc⟩
  · rw [next_of_leadingBlanks tabSize s before hblank,
      next_of_leadingBlanks tabSize' t before' hblank]
    exact ⟨rfl, rfl, h.measure tabSize tabSize' input⟩
  · rw [next_visible tabSize s before u hc, next_visible tabSize' t before' u hc, h.mode,
      read_congr side]
    exact ⟨rfl, rfl, (h.measure tabSize tabSize' (c :: u)).pass _ _⟩

/-- States that are alike cut a text into the same lexemes and stay alike. -/
theorem Alike.cuts (h : s.Alike t) (side : SameSide before before') {input : Text}
    {lexemes : List Lexeme} {last : LineState}
    (cuts : Cuts (LineState.next tabSize) s before input lexemes last) :
    ∃ last', Cuts (LineState.next tabSize') t before' input lexemes last' ∧ last.Alike last' := by
  induction cuts generalizing t before' with
  | nil s before => exact ⟨t, .nil t before', h⟩
  | @cons s next last before cls token rest lexemes nonempty read tail ih =>
      obtain ⟨hcls, hlen, hstate⟩ := h.next tabSize tabSize' side
        (List.append_ne_nil_of_left_ne_nil nonempty rest)
      rw [read] at hcls hlen hstate
      obtain ⟨last', htail, hlast⟩ := ih hstate (SameSide.refl token.getLast?)
      refine ⟨last', .cons nonempty ?_ htail, hlast⟩
      change cls = _ at hcls
      change token.length = _ at hlen
      rw [hcls, hlen]

theorem Alike.cutLine (h : s.Alike t) (side : SameSide before before') (input : Text) :
    (cutLine (LineState.next tabSize) s before input).1 =
        (cutLine (LineState.next tabSize') t before' input).1 ∧
      (cutLine (LineState.next tabSize) s before input).2.Alike
        (cutLine (LineState.next tabSize') t before' input).2 := by
  obtain ⟨last', hcuts, hlast⟩ :=
    h.cuts tabSize tabSize' side (cuts_cutLine (advances_next tabSize) s before input)
  rw [hcuts.cutLine_eq]
  exact ⟨rfl, hlast⟩

/-! ### Leading blanks -/

/-- The lexemes of a run of blanks: one, if there are any. -/
def blankLexemes : Text → List Lexeme
  | [] => []
  | c :: t => [⟨.plain, c :: t⟩]

/-- The rest of a line is read as if it stood at the margin, if the leading blanks end with one
after which words start. -/
theorem Alike.readLine_trimStart (h : s.Alike t) {line : Text}
    (side : SameSide line.leadingBlanks.getLast? none) :
    (s.readLine tabSize line).1 =
        blankLexemes line.leadingBlanks ++ (t.readLine tabSize' line.trimStart).1 ∧
      (s.readLine tabSize line).2.Alike (t.readLine tabSize' line.trimStart).2 := by
  have hsplit := Text.leadingBlanks_append_trimStart line
  have hall := Text.isAllBlank_leadingBlanks line
  have hstart := Text.startsVisible_trimStart line
  unfold LineState.readLine
  cases hblank : line.leadingBlanks with
  | nil =>
      rw [hblank, List.nil_append] at hsplit
      rw [hsplit]
      exact h.cutLine tabSize tabSize' (SameSide.refl none) line
  | cons c u =>
      have hne : line.leadingBlanks ≠ [] := by rw [hblank]; exact List.cons_ne_nil c u
      have hm : Alike { s with indentation := line.columns tabSize } t := ⟨h.mode, h.height⟩
      obtain ⟨hlex, hlast⟩ := hm.cutLine tabSize tabSize' side line.trimStart
      have hread := s.readLine_blanks tabSize hne hall hstart
      rw [hsplit] at hread
      unfold LineState.readLine at hread
      rw [hread, ← hlex, hblank]
      rw [hblank] at hlast
      exact ⟨rfl, hlast⟩

end LineState

/-! ## Taking up at a line

Annotating can take up at any line from a state that was kept.  What it gives from there on depends
on the mode and the number of open blocks only: states that are alike annotate every line in the same
way and stay alike (`Alike.annotate_eq`, `Alike.annotateLines_eq`), whatever columns they recorded and
whatever the indent unit is.  So annotating anew after a change can stop at the first line before
which the state is like the one kept there.  It can stop no earlier, since an empty line already
tells states apart that are not alike (`alike_of_annotate_nil`). -/

namespace LineState

variable {s t : LineState}

/-- States that are alike annotate a line in the same way. -/
theorem Alike.annotate_eq (h : s.Alike t) (tabSize number : Nat) (line : Text) :
    (s.annotate tabSize number line).1 = (t.annotate tabSize number line).1 ∧
      (s.annotate tabSize number line).2.Alike (t.annotate tabSize number line).2 := by
  obtain ⟨hlexemes, hlast⟩ := h.cutLine tabSize tabSize (Mode.SameSide.refl none) line
  refine ⟨?_, hlast⟩
  simp only [annotate, readLine, hlexemes, hlast.mode, hlast.height]

theorem Alike.annotateLines_eq (h : s.Alike t) (tabSize number : Nat) (lines : List Text) :
    (s.annotateLines tabSize number lines).1 = (t.annotateLines tabSize number lines).1 ∧
      (s.annotateLines tabSize number lines).2.Alike
        (t.annotateLines tabSize number lines).2 := by
  induction lines generalizing s t number with
  | nil => exact ⟨rfl, h⟩
  | cons line lines ih =>
      obtain ⟨hline, hnext⟩ := h.annotate_eq tabSize number line
      obtain ⟨hlines, hlast⟩ := ih hnext (number + 1)
      refine ⟨?_, hlast⟩
      simp only [annotateLines, hline, hlines]

theorem alike_of_annotate_nil {tabSize number : Nat}
    (h : (s.annotate tabSize number []).1 = (t.annotate tabSize number []).1) : s.Alike t := by
  simp only [annotate, readLine, cutLine_nil, AnnotatedLine.mk.injEq] at h
  obtain ⟨-, -, hheight, hmode, -⟩ := h
  exact ⟨hmode, hheight⟩

/-- **Where annotating may stop.**  With the same tab size and any indent units, two states give the
same annotations of every list of lines exactly if they agree in mode and in the number of open
blocks; and then they still agree in both behind the lines. -/
theorem annotateLines_eq_iff_alike {settings settings' : Settings}
    (tab : settings.tabSize = settings'.tabSize) (s t : LineState) :
    (s.Alike t ↔ ∀ number lines, (s.annotateLines settings.tabSize number lines).1 =
        (t.annotateLines settings'.tabSize number lines).1) ∧
      (s.Alike t → ∀ number lines, (s.annotateLines settings.tabSize number lines).2.Alike
        (t.annotateLines settings'.tabSize number lines).2) := by
  rw [← tab]
  refine ⟨⟨fun h number lines => (h.annotateLines_eq _ number lines).1, fun h => ?_⟩,
    fun h number lines => (h.annotateLines_eq _ number lines).2⟩
  have hempty := h 1 [[]]
  simp only [annotateLines, List.cons.injEq, and_true] at hempty
  exact alike_of_annotate_nil hempty

/-- Blocks at other columns, a stale indentation and another indent unit leave no trace. -/
theorem annotateLines_eq_of_other_columns :
    let s : LineState := ⟨.string '"', ⟨-4, [4, 0]⟩, 0⟩
    let t : LineState := ⟨.string '"', ⟨-2, [9, 3]⟩, 7⟩
    let lines := ["x\" else".toList, "\tif a /* b".toList, [], "*/ end".toList]
    s.Alike t ∧ (s.annotateLines 4 1 lines).1 = (t.annotateLines 4 1 lines).1 ∧
      (s.annotateLines 4 1 lines).2.Alike (t.annotateLines 4 1 lines).2 := by
  intro s t lines
  have tab : Settings.tabSize ⟨4, 4⟩ = Settings.tabSize ⟨2, 4⟩ := rfl
  have alike : s.Alike t := ⟨rfl, rfl⟩
  obtain ⟨hiff, hlast⟩ := annotateLines_eq_iff_alike tab s t
  exact ⟨alike, hiff.mp alike 1 lines, hlast alike 1 lines⟩

end LineState

end BlockLayout
