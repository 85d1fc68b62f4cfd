import BlockLayout.Document.State
import BlockLayout.Proofs.Document.Reading
import BlockLayout.Proofs.Token.Cuts
import BlockLayout.Proofs.Document.LaidOut
import Mathlib.Data.List.Forall2

/-! # What a layout shows

Two annotated lines show the same (`AnnotatedLine.SameView`) if they agree in depth and mode and
their spans differ by one common offset.  Annotating a document and annotating its layout are two
runs from states that are alike; each pair of lines shows the same and leaves states that are alike
again (`sameView_layoutLines`).

Main statement: `layout_keeps_view`, for sources whose only blanks are spaces, tabs and line
feeds. -/

namespace BlockLayout

/-- The second span shows what the first one shows, `d` bytes further on. -/
structure Span.Shifted (d : Int) (s t : Span) : Prop where
  start : (t.start : Int) = s.start + d
  stop : (t.stop : Int) = s.stop + d
  text : t.text = s.text
  cls : t.cls = s.cls

/-- The lines agree in depth, in mode and in their spans but for one common offset. -/
structure AnnotatedLine.SameView (a b : AnnotatedLine) : Prop where
  depth : a.depth = b.depth
  mode : a.mode = b.mode
  spans : ∃ d, List.Forall₂ (Span.Shifted d) a.spans b.spans

theorem Span.shifted_moved (m n : Nat) (spans : List Span) :
    List.Forall₂ (Shifted ((n : Int) - m)) (spans.map (moved m)) (spans.map (moved n)) := by
  rw [List.forall₂_map_left_iff, List.forall₂_map_right_iff, List.forall₂_same]
  intro s _
  refine ⟨?_, ?_, rfl, rfl⟩
  · simp only [moved]
    omega
  · simp only [moved]
    omega

/-- The only blanks of the text are spaces and tabs. -/
def Text.IsPlain (t : Text) : Prop := ∀ c ∈ t, isBlank c = true → c = ' ' ∨ c = '\t'

theorem Text.IsPlain.sameSide {t : Text} (h : t.IsPlain) :
    Mode.SameSide t.leadingBlanks.getLast? none := by
  cases hlast : t.leadingBlanks.getLast? with
  | none => exact Mode.SameSide.refl none
  | some c =>
      have hmem := List.mem_of_getLast? hlast
      have hblank := isAllBlank_iff.mp (isAllBlank_leadingBlanks t) c hmem
      rcases h c (List.takeWhile_subset _ hmem) hblank with rfl | rfl
      · exact ⟨by decide, by decide⟩
      · exact ⟨by decide, by decide⟩

namespace LineState

variable {s t : LineState} (settings : Settings)

/-! ### One line -/

theorem spans_of_lexemes (line : Text) (lexemes : List Lexeme) :
    Span.ofLexemes (blankLexemes line.leadingBlanks ++ lexemes) =
      (Span.ofLexemes lexemes).map (Span.moved line.leadingBlanks.byteLength) := by
  have hall := Text.isAllBlank_leadingBlanks line
  cases hblank : line.leadingBlanks with
  | nil =>
      have hid : Span.moved (Text.byteLength []) = id := by
        funext s
        rfl
      rw [hid, List.map_id]
      rfl
  | cons c u =>
      rw [hblank] at hall
      exact Span.ofLexemes_cons_blank hall lexemes

theorem Alike.sameView_of_trimStart (h : s.Alike t) (tabSize number : Nat) {line line' : Text}
    (trim : line.trimStart = line'.trimStart)
    (side : Mode.SameSide line.leadingBlanks.getLast? none)
    (side' : Mode.SameSide line'.leadingBlanks.getLast? none) :
    (s.annotate tabSize number line).1.SameView (t.annotate tabSize number line').1 ∧
      (s.annotate tabSize number line).2.Alike (t.annotate tabSize number line').2 := by
  obtain ⟨hlex, hlast⟩ := h.readLine_trimStart tabSize tabSize side
  obtain ⟨hlex', hlast'⟩ := (Alike.refl t).readLine_trimStart tabSize tabSize side'
  rw [trim] at hlex hlast
  have hmode := hlast.mode.trans hlast'.mode.symm
  have hheight := hlast.height.trans hlast'.height.symm
  have hspans := Span.shifted_moved line.leadingBlanks.byteLength line'.leadingBlanks.byteLength
    (Span.ofLexemes (t.readLine tabSize line'.trimStart).1)
  rw [← spans_of_lexemes, ← spans_of_lexemes, ← hlex, ← hlex'] at hspans
  exact ⟨⟨hheight, hmode, _, hspans⟩, ⟨hmode, hheight⟩⟩

theorem Alike.sameView_refl (h : s.Alike t) (tabSize number : Nat) (line : Text) :
    (s.annotate tabSize number line).1.SameView (t.annotate tabSize number line).1 ∧
      (s.annotate tabSize number line).2.Alike (t.annotate tabSize number line).2 := by
  obtain ⟨hlex, hlast⟩ := h.cutLine tabSize tabSize (Mode.SameSide.refl none) line
  refine ⟨⟨hlast.height, hlast.mode, 0, ?_⟩, hlast⟩
  simp only [annotate, readLine, hlex]
  rw [List.forall₂_same]
  intro span _
  exact ⟨by simp, by simp, rfl, rfl⟩

theorem Alike.sameView_layoutLine (h : s.Alike t) (number : Nat) {line : Text}
    (plain : line.IsPlain) :
    (s.annotate settings.tabSize number line).1.SameView
        (t.annotate settings.tabSize number (t.layoutLine settings line)).1 ∧
      (s.annotate settings.tabSize number line).2.Alike
        (t.annotate settings.tabSize number (t.layoutLine settings line)).2 := by
  have htrim := (t.trimStart_layoutLine settings line).symm
  rcases t.layoutLine_cases settings line with ⟨-, hl⟩ | ⟨-, -, hl⟩ | ⟨-, -, hl⟩
  · rw [hl]
    exact h.sameView_refl settings.tabSize number line
  · refine h.sameView_of_trimStart settings.tabSize number htrim plain.sameSide ?_
    rw [hl]
    exact Mode.SameSide.refl none
  · refine h.sameView_of_trimStart settings.tabSize number htrim plain.sameSide ?_
    rw [hl, Text.leadingBlanks_append (isAllBlank_replicate _) (Text.startsVisible_trimStart line)]
    exact Mode.sameSide_replicate _

theorem spans_annotate_of_blank (tabSize number : Nat) (s : LineState) {line : Text}
    (plain : line.IsPlain) (blank : line.trimStart = []) :
    (s.annotate tabSize number line).1.spans = [] := by
  obtain ⟨hlex, -⟩ := (Alike.refl s).readLine_trimStart tabSize tabSize plain.sameSide
  have hnil : (s.readLine tabSize []).1 = [] := by rw [readLine, cutLine_nil]
  rw [blank, hnil] at hlex
  have hspans := spans_of_lexemes line []
  unfold annotate
  simp only [hlex]
  exact hspans

/-! ### Lines one after the other -/

theorem annotateLines_append (tabSize : Nat) (s : LineState) (number : Nat)
    (front back : List Text) :
    (s.annotateLines tabSize number (front ++ back)).1 =
      (s.annotateLines tabSize number front).1 ++
        ((s.annotateLines tabSize number front).2.annotateLines tabSize (number + front.length)
          back).1 := by
  induction front generalizing s number with
  | nil => rfl
  | cons line front ih =>
      have hnumber : number + (line :: front).length = number + 1 + front.length := by
        rw [List.length_cons]
        omega
      rw [hnumber]
      exact congrArg (_ :: ·) (ih (s.annotate tabSize number line).2 (number + 1))

@[simp] theorem length_annotateLines (tabSize : Nat) (s : LineState) (number : Nat)
    (lines : List Text) : (s.annotateLines tabSize number lines).1.length = lines.length := by
  induction lines generalizing s number with
  | nil => rfl
  | cons line lines ih =>
      exact congrArg (· + 1) (ih (s.annotate tabSize number line).2 (number + 1))

/-- Lines show the same once they are laid out one after the other. -/
theorem Alike.sameView_layoutLines (h : s.Alike t) (number : Nat) {lines : List Text}
    (plain : ∀ line ∈ lines, line.IsPlain) :
    List.Forall₂ AnnotatedLine.SameView (s.annotateLines settings.tabSize number lines).1
        (t.annotateLines settings.tabSize number (t.layoutLines settings lines).1).1 ∧
      (s.annotateLines settings.tabSize number lines).2.Alike (t.layoutLines settings lines).2 := by
  induction lines generalizing s t number with
  | nil => exact ⟨.nil, h⟩
  | cons line lines ih =>
      obtain ⟨hview, hnext⟩ := h.sameView_layoutLine settings number (plain line List.mem_cons_self)
      obtain ⟨hviews, hlast⟩ :=
        ih hnext (number + 1) fun l hl => plain l (List.mem_cons_of_mem line hl)
      exact ⟨.cons hview hviews, hlast⟩

end LineState

/-! ### Sources -/

namespace Document

variable (settings : Settings) {source : Text}

theorem lines_of_pieces_nil {t : Text} (kept : t.rows = t.pieces) {front : List Text}
    (h : t.pieces = front ++ [[]]) : t.lines = front := by
  have hlines := Text.lines_append t
  rw [kept, h, List.getLast?_concat, if_pos rfl] at hlines
  exact List.append_cancel_right hlines

theorem lines_of_pieces {t : Text} (kept : t.rows = t.pieces) {front : List Text} {last : Text}
    (nonempty : last ≠ []) (h : t.pieces = front ++ [last]) : t.lines = front ++ [last] := by
  have hlines := Text.lines_append t
  rw [kept, h, List.getLast?_concat,
    if_neg (fun hl => nonempty (Option.some.inj hl)), List.append_nil] at hlines
  exact hlines

/-- A source whose only blanks are spaces, tabs and line feeds. -/
def IsPlain (source : Text) : Prop :=
  ∀ c ∈ source, Text.isBlank c = true → c = ' ' ∨ c = '\t' ∨ c = '\n'

instance (source : Text) : Decidable (IsPlain source) := List.decidableBAll _ source

theorem IsPlain.free (plain : IsPlain source) : ¬ ['\r', '\n'] <:+: source := by
  intro h
  have hmem : '\r' ∈ source := h.mem (by simp)
  rcases plain '\r' hmem (by decide) with h | h | h
  · exact absurd h (by decide)
  · exact absurd h (by decide)
  · exact absurd h (by decide)

theorem IsPlain.free_layout (plain : IsPlain source) :
    ¬ ['\r', '\n'] <:+: layout settings source := by
  intro h
  have hreturns := returns_infix_of_layout settings source h
  exact plain.free (List.IsInfix.trans ⟨['\r'], [], rfl⟩ hreturns)

theorem IsPlain.rows_eq (plain : IsPlain source) : source.rows = source.pieces :=
  (Text.rows_eq_pieces_iff source).mpr plain.free

theorem IsPlain.rows_layout (plain : IsPlain source) :
    (layout settings source).rows = (layout settings source).pieces :=
  (Text.rows_eq_pieces_iff _).mpr (plain.free_layout settings)

theorem IsPlain.pieces_layout (plain : IsPlain source) :
    (layout settings source).pieces =
      ((LineState.start settings).layoutLines settings source.pieces).1 := by
  rw [Document.pieces_layout, layoutRows, plain.rows_eq]

theorem IsPlain.of_mem_pieces (plain : IsPlain source) {p : Text} (h : p ∈ source.pieces) :
    p.IsPlain := by
  intro c hc hblank
  rcases plain c (Text.subset_of_mem_pieces h hc) hblank with hc' | hc' | rfl
  · exact Or.inl hc'
  · exact Or.inr hc'
  · exact absurd hc (Text.not_mem_of_mem_pieces h)

/-- Annotated from the start, the pieces of a plain source show what the pieces of its layout show. -/
theorem IsPlain.sameView_pieces (plain : IsPlain source) :
    List.Forall₂ AnnotatedLine.SameView
      ((LineState.start settings).annotateLines settings.tabSize 1 source.pieces).1
      ((LineState.start settings).annotateLines settings.tabSize 1
        (layout settings source).pieces).1 := by
  rw [plain.pieces_layout settings]
  exact ((LineState.Alike.refl _).sameView_layoutLines settings 1
    fun _ h => plain.of_mem_pieces h).1

/-- The layout of a plain source has the lines of the source, or all but a blank last one. -/
theorem IsPlain.lines_layout (plain : IsPlain source) :
    (layout settings source).lines.length = source.lines.length ∨
      ∃ earlier last, source.lines = earlier ++ [last] ∧
        (layout settings source).lines.length = earlier.length ∧
        source.endsLine = false ∧ last.trimStart = [] ∧
        ((LineState.start settings).layoutLines settings earlier).2.mode = .base := by
  have hpieces := plain.pieces_layout settings
  rcases List.eq_nil_or_concat source.pieces with hnil | ⟨front, last, hsplit⟩
  · exact absurd hnil (Text.pieces_ne_nil source)
  · rw [List.concat_eq_append] at hsplit
    rw [hsplit, LineState.layoutLines_append, LineState.layoutLines_cons,
      LineState.layoutLines_nil] at hpieces
    by_cases hlast : last = []
    · subst hlast
      rw [LineState.layoutLine_nil] at hpieces
      rw [lines_of_pieces_nil plain.rows_eq hsplit,
        lines_of_pieces_nil (plain.rows_layout settings) hpieces]
      exact Or.inl (LineState.length_layoutLines settings _ front)
    · have hlines := lines_of_pieces plain.rows_eq hlast hsplit
      by_cases hempty : (((LineState.start settings).layoutLines settings front).2.layoutLine
          settings last) = []
      · rw [hempty] at hpieces
        obtain hnil | ⟨hmode, hblank⟩ := (LineState.layoutLine_eq_nil_iff settings _).mp hempty
        · exact absurd hnil hlast
        refine Or.inr ⟨front, last, hlines, ?_, ?_, hblank, hmode⟩
        · rw [lines_of_pieces_nil (plain.rows_layout settings) hpieces]
          exact LineState.length_layoutLines settings _ front
        · rw [Bool.eq_false_iff]
          intro hend
          have hsource : source ≠ [] := by
            rintro rfl
            cases hend
          rw [Text.endsLine_iff hsource, hsplit, List.getLast?_concat] at hend
          exact hlast (Option.some.inj hend)
      · rw [hlines, lines_of_pieces (plain.rows_layout settings) hempty hpieces]
        rw [List.length_append, List.length_append, LineState.length_layoutLines]
        exact Or.inl rfl

theorem IsPlain.length_lines_layout_le (plain : IsPlain source) :
    (layout settings source).lines.length ≤ source.lines.length := by
  rcases plain.lines_layout settings with hcount | ⟨earlier, last, hlines, hcount, -⟩
  · omega
  · rw [hlines, hcount, List.length_append]
    omega

/-- **What a layout keeps.**  If the only blanks of a source are spaces, tabs and line feeds, every
line of its layout shows what the same line of the source shows.  The source has no further line but
possibly a last one, blank and unfinished, that starts in ordinary code and shows no span. -/
theorem layout_keeps_view (plain : IsPlain source) :
    List.Forall₂ AnnotatedLine.SameView
        ((annotate settings source).1.take (layout settings source).lines.length)
        (annotate settings (layout settings source)).1 ∧
      (source.lines.length = (layout settings source).lines.length ∨
        ∃ earlier last, source.lines = earlier ++ [last] ∧
          earlier.length = (layout settings source).lines.length ∧
          source.endsLine = false ∧ last.isAllBlank = true ∧
          ((LineState.start settings).annotateLines settings.tabSize 1 earlier).2.mode = .base ∧
          ∃ shown, (annotate settings source).1.getLast? = some shown ∧ shown.spans = []) := by
  have hsource := Text.lines_append source
  rw [plain.rows_eq] at hsource
  have hlayout := Text.lines_append (layout settings source)
  rw [plain.rows_layout settings] at hlayout
  constructor
  · have hle := plain.length_lines_layout_le settings
    have hview := plain.sameView_pieces settings
    rw [← hsource, ← hlayout, LineState.annotateLines_append, LineState.annotateLines_append]
      at hview
    have htake := List.forall₂_take_append _ _ _ hview
    rw [LineState.length_annotateLines, List.take_append_of_le_length
      (by rw [LineState.length_annotateLines]; exact hle)] at htake
    exact htake
  · rcases plain.lines_layout settings with
      hcount | ⟨earlier, last, hlines, hcount, hend, hblank, hmode⟩
    · exact Or.inl hcount.symm
    have hplain : ∀ line ∈ earlier ++ [last], line.IsPlain := by
      intro line hline
      rw [← hlines] at hline
      exact plain.of_mem_pieces (hsource ▸ List.mem_append_left _ hline)
    have halike := ((LineState.Alike.refl (LineState.start settings)).sameView_layoutLines settings 1
      fun line hline => hplain line (List.mem_append_left _ hline)).2
    refine Or.inr ⟨earlier, last, hlines, hcount.symm, hend, Text.trimStart_eq_nil_iff.mp hblank,
      halike.mode.trans hmode, ?_⟩
    unfold annotate
    rw [hlines, LineState.annotateLines_append]
    refine ⟨_, List.getLast?_concat, ?_⟩
    exact LineState.spans_annotate_of_blank settings.tabSize _ _
      (hplain last (List.mem_append_right _ List.mem_cons_self)) hblank

/-- A layout that leaves the blank last line of its source out. -/
theorem layout_keeps_view_of_unfinished :
    IsPlain "if a\n\tsay 1\n  ".toList ∧
      (layout {} "if a\n\tsay 1\n  ".toList).lines = ["if a".toList, "    say 1".toList] ∧
      List.Forall₂ AnnotatedLine.SameView
        ((annotate {} "if a\n\tsay 1\n  ".toList).1.take
          (layout {} "if a\n\tsay 1\n  ".toList).lines.length)
        (annotate {} (layout {} "if a\n\tsay 1\n  ".toList)).1 := by
  have plain : IsPlain "if a\n\tsay 1\n  ".toList := by decide
  exact ⟨plain, by decide +kernel, (layout_keeps_view {} plain).1⟩

end Document

end BlockLayout
