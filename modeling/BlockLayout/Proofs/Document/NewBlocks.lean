import BlockLayout.Document.State
import BlockLayout.Proofs.Document.Keywords

/-! # Blocks of lines

The spans of a line have all its keywords: blanks, which are dropped, are no keywords, and the plain
tokens that are joined are none either (`keywords_ofLexemes`).  The annotation of a line therefore
says how the line changes the open blocks (`blocks_annotate`), and the annotations of lines one after
the other lead from the blocks before the first to the blocks after the last
(`blocks_annotateLines`).

Main statements: `annotation_determines_blocks`, `new_block_column_iff`. -/

namespace BlockLayout

/-! ### One line -/

namespace Span

/-- The keywords among spans, each with the given indentation. -/
def keywords (n : Nat) (spans : List Span) : List (KeywordRole × Nat) :=
  spans.filterMap fun s => s.cls.role?.map fun role => (role, n)

theorem keywords_cons (n : Nat) (s : Span) (spans : List Span) :
    keywords n (s :: spans) = (s.cls.role?.map fun role => (role, n)).toList ++ keywords n spans := by
  unfold keywords
  rw [List.filterMap_eq_flatMap_toList, List.filterMap_eq_flatMap_toList, List.flatMap_cons]

theorem keywords_visible (n offset : Nat) (lexemes : List Lexeme) :
    keywords n ((place offset lexemes).filter fun s => !s.text.isAllBlank) =
      LineState.keywords n (lexemes.filter fun l => !l.text.isAllBlank) := by
  induction lexemes generalizing offset with
  | nil => rfl
  | cons l ls ih =>
      rw [place, List.filter_cons, List.filter_cons]
      by_cases h : (!l.text.isAllBlank) = true
      · rw [if_pos h, if_pos h, keywords_cons, LineState.keywords_cons, ih]
      · rw [if_neg h, if_neg h, ih]

theorem keywords_consJoined (n : Nat) (s : Span) (spans : List Span) :
    keywords n (consJoined s spans) = keywords n (s :: spans) := by
  cases spans with
  | nil => rfl
  | cons t ts =>
      rw [consJoined]
      by_cases h : s.joins t = true
      · have hplain : s.cls = .plain ∧ t.cls = .plain := by
          unfold joins at h
          simp only [Bool.and_eq_true, beq_iff_eq] at h
          exact ⟨h.1.2, h.2⟩
        rw [if_pos h, keywords_cons, keywords_cons, keywords_cons, hplain.1, hplain.2]
        rfl
      · rw [if_neg h]

theorem keywords_foldr_consJoined (n : Nat) (spans : List Span) :
    keywords n (spans.foldr consJoined []) = keywords n spans := by
  induction spans with
  | nil => rfl
  | cons s ss ih => rw [List.foldr_cons, keywords_consJoined, keywords_cons, keywords_cons, ih]

theorem keywords_ofLexemes (n : Nat) (lexemes : List Lexeme) :
    keywords n (ofLexemes lexemes) =
      LineState.keywords n (lexemes.filter fun l => !l.text.isAllBlank) := by
  unfold ofLexemes
  rw [keywords_foldr_consJoined, keywords_visible]

end Span

namespace LineState

variable (tabSize : Nat) (s : LineState) (number : Nat)

theorem keywords_annotate (line : Text) :
    (s.annotate tabSize number line).1.keywords =
      keywords (line.columns tabSize) (s.readLine tabSize line).1 :=
  (Span.keywords_ofLexemes _ _).trans (keywords_visibleLexemes tabSize s line _)

/-- The annotation of a line says how the line changes the blocks. -/
theorem blocks_annotate (line : Text) :
    (s.annotate tabSize number line).2.blocks =
      s.blocks.applyAll (s.annotate tabSize number line).1.keywords := by
  rw [keywords_annotate]
  exact blocks_readLine tabSize s line

/-! ### Lines one after the other -/

theorem blocks_annotateLines (lines : List Text) :
    (s.annotateLines tabSize number lines).2.blocks =
      s.blocks.applyAll
        ((s.annotateLines tabSize number lines).1.flatMap AnnotatedLine.keywords) := by
  induction lines generalizing s number with
  | nil => rfl
  | cons line lines ih =>
      rw [annotateLines, List.flatMap_cons, Blocks.applyAll_append, ← blocks_annotate]
      exact ih (s.annotate tabSize number line).2 (number + 1)

/-- The depth of every line is the height that the keywords up to the end of the line lead to. -/
theorem height_annotateLines (lines : List Text) :
    ∀ k (h : k < (s.annotateLines tabSize number lines).1.length),
      (s.blocks.applyAll (((s.annotateLines tabSize number lines).1.take (k + 1)).flatMap
        AnnotatedLine.keywords)).height = (s.annotateLines tabSize number lines).1[k].depth := by
  induction lines generalizing s number with
  | nil => exact fun k h => absurd h (Nat.not_lt_zero k)
  | cons line lines ih =>
      intro k h
      have hfirst := blocks_annotate tabSize s number line
      cases k with
      | zero =>
          simp only [annotateLines, List.take_succ_cons, List.take_zero, List.flatMap_cons,
            List.flatMap_nil, List.append_nil, List.getElem_cons_zero]
          rw [← hfirst]
          rfl
      | succ k =>
          simp only [annotateLines, List.take_succ_cons, List.flatMap_cons, List.getElem_cons_succ]
          rw [Blocks.applyAll_append, ← hfirst]
          exact ih (s.annotate tabSize number line).2 (number + 1) k (Nat.lt_of_succ_lt_succ h)

end LineState

/-! ### Sources -/

/-- **Annotations determine the blocks.**  Applied one after the other to no open block, the keywords
among the spans of the annotated lines, each with the indentation of its line, lead after every line
to as many blocks as its depth says, and at the end to the very blocks that the source leaves. -/
theorem Document.annotation_determines_blocks (settings : Settings) (source : Text) :
    (∀ k : Fin (annotate settings source).1.length,
      ((Blocks.start settings.indentUnit).applyAll
          (((annotate settings source).1.take (k + 1)).flatMap AnnotatedLine.keywords)).height =
        ((annotate settings source).1.get k).depth) ∧
      (Blocks.start settings.indentUnit).applyAll
          ((annotate settings source).1.flatMap AnnotatedLine.keywords) =
        (annotate settings source).2.blocks := by
  constructor
  · intro k
    exact LineState.height_annotateLines settings.tabSize (LineState.start settings) 1 source.lines
      k k.isLt
  · exact (LineState.blocks_annotateLines settings.tabSize (LineState.start settings) 1
      source.lines).symm

/-! ## Blocks that a line opens

`Blocks.newAfterAll` counts how many of the innermost blocks were opened by keywords that are applied one
after the other: an opener makes one more, a closer one less, and a divider puts a new one in place of the
innermost.  Below them are only blocks from before, and if the keywords stand on one line, all new blocks
are recorded at the indentation of that line, as a number with a sign (`Blocks.opened_applyAll`).

So where lines belong behind a line that leaves a new block on top is told by the indentation of that line
and the indent unit, as long as both together stay in the range with a sign; valid settings are only
bounded from below. -/

open Bits64

namespace Blocks

variable {b : Blocks} {n : Nat}

/-- How many of the innermost blocks are new behind a keyword, if `new` of them were before. -/
def newAfter (b : Blocks) (new : Nat) (role : KeywordRole) : Nat :=
  match role, b.opened with
  | .opener, _ => new + 1
  | .closer, _ => new - 1
  | .divider, _ :: _ => new - 1 + 1
  | _, _ => new

/-- How many of the innermost blocks are new behind keywords, if `new` of them were before. -/
def newAfterAll (b : Blocks) (new : Nat) : List (KeywordRole × Nat) → Nat
  | [] => new
  | (role, n) :: ks => (b.apply role n).newAfterAll (b.newAfter new role) ks

theorem opened_apply {new : Nat} {old : List Int} (role : KeywordRole)
    (opened : b.opened = List.replicate new (signed n) ++ old) :
    ∃ kept, kept <:+ old ∧
      (b.apply role n).opened = List.replicate (b.newAfter new role) (signed n) ++ kept := by
  obtain ⟨root, opened'⟩ := b
  obtain rfl : opened' = _ := opened
  cases role with
  | opener => exact ⟨old, List.suffix_rfl, rfl⟩
  | neutral => exact ⟨old, List.suffix_rfl, by rw [apply_neutral]; rfl⟩
  | closer | divider =>
      cases new with
      | succ new => exact ⟨old, List.suffix_rfl, rfl⟩
      | zero =>
          cases old with
          | nil => exact ⟨[], List.suffix_rfl, rfl⟩
          | cons column old => exact ⟨old, List.suffix_cons column old, rfl⟩

/-- Keywords on one line leave the new blocks at the indentation of the line, and behind them some of the
blocks from before. -/
theorem opened_applyAll {ks : List (KeywordRole × Nat)} (line : ∀ k ∈ ks, k.2 = n) {new : Nat}
    {old : List Int} (opened : b.opened = List.replicate new (signed n) ++ old) :
    ∃ kept, kept <:+ old ∧
      (b.applyAll ks).opened = List.replicate (b.newAfterAll new ks) (signed n) ++ kept := by
  induction ks generalizing b new old with
  | nil => exact ⟨old, List.suffix_rfl, opened⟩
  | cons k ks ih =>
      obtain ⟨role, m⟩ := k
      obtain rfl : m = n := line (role, m) List.mem_cons_self
      obtain ⟨kept, hkept, hopened⟩ := opened_apply role opened
      obtain ⟨kept', hkept', hopened'⟩ :=
        ih (fun k hk => line k (List.mem_cons_of_mem _ hk)) hopened
      exact ⟨kept', hkept'.trans hkept, hopened'⟩

theorem exists_top_applyAll {ks : List (KeywordRole × Nat)} (line : ∀ k ∈ ks, k.2 = n)
    (opens : 0 < b.newAfterAll 0 ks) : ∃ outer, (b.applyAll ks).opened = signed n :: outer := by
  have hnone : b.opened = List.replicate 0 (signed n) ++ b.opened := rfl
  obtain ⟨kept, -, hopened⟩ := opened_applyAll line hnone
  obtain ⟨m, hm⟩ := Nat.exists_eq_succ_of_ne_zero (Nat.ne_of_gt opens)
  rw [hm, List.replicate_succ] at hopened
  exact ⟨_, hopened⟩

theorem top_of_opened {column : Int} {outer : List Int} (opened : b.opened = column :: outer) :
    b.top = column := by
  unfold top
  rw [opened, List.head?_cons, Option.getD_some]

/-- Where a line belongs behind a block that was recorded at the indentation of a line. -/
theorem columnFor_of_opened {outer : List Int} (opened : b.opened = signed n :: outer) (unit : Nat)
    (content : Text) : b.columnFor unit content =
      (signed (n + if startsWithCloser content then 0 else unit : Nat)).toNat := by
  have hroot : b.isRoot = false := by
    unfold isRoot
    rw [opened, List.isEmpty_cons]
  unfold columnFor
  rw [top_of_opened opened, hroot, Bool.not_false, Bool.true_and, signed_add_signed]
  cases startsWithCloser content with
  | true => simp only [if_true, Nat.add_zero]
  | false => simp only [Bool.false_eq_true, if_false, Int.natCast_add]

end Blocks

namespace LineState

theorem indentation_of_mem_keywords {a : AnnotatedLine} {k : KeywordRole × Nat}
    (h : k ∈ a.keywords) : k.2 = a.indentation := by
  unfold AnnotatedLine.keywords at h
  obtain ⟨span, -, hspan⟩ := List.mem_filterMap.mp h
  obtain ⟨role, -, rfl⟩ := Option.map_eq_some_iff.mp hspan
  rfl

/-- The innermost block is recorded at the column, and lines belong at it if a closing word leads them and
one unit deeper otherwise. -/
structure RecordsBlock (settings : Settings) (s : LineState) (column : Nat) : Prop where
  recorded : s.blocks.top = column
  closing : ∀ content, Blocks.startsWithCloser content = true →
    s.columnFor settings content = column
  inside : ∀ content, Blocks.startsWithCloser content = false →
    s.columnFor settings content = column + settings.indentUnit

variable (settings : Settings) {s : LineState} {column : Nat} {outer : List Int}

theorem top_eq_iff (opened : s.blocks.opened = signed column :: outer) :
    s.blocks.top = column ↔ column < half := by
  rw [Blocks.top_of_opened opened]
  exact signed_eq_self_iff

theorem columnFor_eq_iff (opened : s.blocks.opened = signed column :: outer) (content : Text) :
    s.columnFor settings content =
        column + (if Blocks.startsWithCloser content then 0 else settings.indentUnit) ↔
      column + (if Blocks.startsWithCloser content then 0 else settings.indentUnit) < half := by
  unfold columnFor
  rw [Blocks.columnFor_of_opened opened]
  exact toNat_signed_eq_iff

theorem recordsBlock_iff (opened : s.blocks.opened = signed column :: outer) :
    s.RecordsBlock settings column ↔ column + settings.indentUnit < half := by
  refine ⟨fun h => (columnFor_eq_iff settings opened []).mp (h.inside [] rfl), fun h => ⟨?_, ?_, ?_⟩⟩
  · exact (top_eq_iff opened).mpr (Nat.lt_of_le_of_lt (Nat.le_add_right _ _) h)
  · intro content closer
    have hfits := (columnFor_eq_iff settings opened content).mpr
    simp only [closer, if_true, Nat.add_zero] at hfits
    exact hfits (Nat.lt_of_le_of_lt (Nat.le_add_right _ _) h)
  · intro content other
    have hfits := (columnFor_eq_iff settings opened content).mpr
    simp only [other, Bool.false_eq_true, if_false] at hfits
    exact hfits h

/-- **New blocks are recorded where their line stands, within the range with a sign.**  Let a line leave a
block on top that one of its keywords opened.  Then the block is recorded at the indentation of the line
exactly if that lies in the range of 64 bits with a sign, and a further line belongs there, or one unit
deeper, exactly if that column lies in the range.  In all, the block is as it should be exactly if one unit
more than the indentation lies in the range. -/
theorem new_block_column_iff (settings : Settings) (s : LineState) (number : Nat) (line : Text)
    (opens : 0 < s.blocks.newAfterAll 0 (s.annotate settings.tabSize number line).1.keywords) :
    let column := line.columns settings.tabSize
    let last := (s.annotate settings.tabSize number line).2
    (last.blocks.top = column ↔ column < half) ∧
      (∀ content, last.columnFor settings content =
          column + (if Blocks.startsWithCloser content then 0 else settings.indentUnit) ↔
        column + (if Blocks.startsWithCloser content then 0 else settings.indentUnit) < half) ∧
      (last.RecordsBlock settings column ↔ column + settings.indentUnit < half) := by
  intro column last
  obtain ⟨outer, hopened⟩ :=
    Blocks.exists_top_applyAll (n := column) (fun _ hk => indentation_of_mem_keywords hk) opens
  rw [← blocks_annotate] at hopened
  exact ⟨top_eq_iff hopened, columnFor_eq_iff settings hopened, recordsBlock_iff settings hopened⟩

/-- A block takes the place of an older one, behind a tab. -/
theorem new_block_column_of_end_if :
    let settings : Settings := ⟨4, 4⟩
    let s : LineState := ⟨.base, ⟨-4, [0]⟩, 0⟩
    let line := "\tend if a".toList
    0 < s.blocks.newAfterAll 0 (s.annotate settings.tabSize 2 line).1.keywords ∧
      (s.annotate settings.tabSize 2 line).2.RecordsBlock settings 4 := by
  intro settings s line
  have opens : 0 < s.blocks.newAfterAll 0 (s.annotate settings.tabSize 2 line).1.keywords := by
    decide +kernel
  exact ⟨opens, (new_block_column_iff settings s 2 line opens).2.2.mpr (by decide +kernel)⟩

/-- **Valid settings can leave the range.**  An indent unit may be as large as eight more than half the
number of values; then the inside of a block at the margin belongs at the margin again. -/
theorem new_block_column_wraps :
    let settings : Settings := ⟨9223372036854775816, 4⟩
    let s := LineState.start settings
    let last := (s.annotate settings.tabSize 1 "if a".toList).2
    settings.validate = .ok settings ∧
      0 < s.blocks.newAfterAll 0 (s.annotate settings.tabSize 1 "if a".toList).1.keywords ∧
      Text.columns settings.tabSize "if a".toList + settings.indentUnit < size ∧
      last.columnFor settings "x".toList = 0 ∧
      ¬ last.RecordsBlock settings (Text.columns settings.tabSize "if a".toList) := by
  intro settings s last
  have hzero : last.columnFor settings "x".toList = 0 := by decide +kernel
  refine ⟨rfl, by decide +kernel, by decide +kernel, hzero, fun records => ?_⟩
  have hinside := records.inside "x".toList (by decide +kernel)
  rw [hzero] at hinside
  exact absurd hinside (by decide +kernel)

end LineState

end BlockLayout
