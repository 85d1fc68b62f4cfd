import BlockLayout.Proofs.Blocks.Grid
import BlockLayout.Proofs.Document.Keywords
import BlockLayout.Proofs.Document.LaidOut
import BlockLayout.Proofs.Text.TabStops

/-! # Columns of a layout

If every keyword that moves blocks leads a line of ordinary code (`KeywordsLead`), and no divider but
`else` and `elseif` occurs (`DividersClose`), the open blocks stay on the grid of the indent unit
from line to line (`onGrid_stateBefore`).  Every line of ordinary code is then indented by one unit
for each open block, one less if a closing word leads it.

Main statements: `layout_on_grid`, `columns_ascend_in_units`. -/

namespace BlockLayout

namespace LineState

/-- Every keyword on the line that moves blocks is the first token to be seen on a line that starts
in ordinary code. -/
def KeywordsLead (tabSize : Nat) (s : LineState) (line : Text) : Prop :=
  (∀ l ∈ (s.visibleLexemes tabSize line).tail, l.movesBlocks = false) ∧
    ∀ l ∈ (s.visibleLexemes tabSize line).head?, l.movesBlocks = true → s.mode = .base

instance (tabSize : Nat) (s : LineState) (line : Text) : Decidable (s.KeywordsLead tabSize line) :=
  inferInstanceAs (Decidable (_ ∧ _))

/-- Every divider on the line is `else` or `elseif`. -/
def DividersClose (tabSize : Nat) (s : LineState) (line : Text) : Prop :=
  ∀ l ∈ s.visibleLexemes tabSize line, l.cls = .keyword .divider →
    l.text = "else".toList ∨ l.text = "elseif".toList

instance (tabSize : Nat) (s : LineState) (line : Text) : Decidable (s.DividersClose tabSize line) :=
  inferInstanceAs (Decidable (∀ _ ∈ _, _))

/-- The number of units by which the line is indented: one for each open block, one less, if there
is one, for a line that a closing word leads. -/
def depthOf (tabSize : Nat) (s : LineState) (line : Text) : Nat :=
  s.blocks.opened.length - if s.leadsWithCloser tabSize line then 1 else 0

variable (settings : Settings) {s : LineState} {line : Text}

/-! ### One line -/

/-- From blocks on the grid a line is laid out on the grid. -/
theorem layoutLine_onGrid (grid : s.blocks.OnGrid settings.indentUnit)
    (small : settings.indentUnit < Bits64.quarter) (base : s.mode = .base)
    (visible : line.trimStart ≠ []) :
    s.layoutLine settings line =
      List.replicate (settings.indentUnit *
        s.depthOf settings.tabSize (s.layoutLine settings line)) ' ' ++ line.trimStart := by
  have hlayout := layoutLine_of_visible settings base visible
  have hcloser := leadsWithCloser_eq settings.tabSize base
    (isAllBlank_replicate (s.columnFor settings line.trimStart)) (Mode.sameSide_replicate _)
    (Text.startsVisible_trimStart line) visible
  have hcolumn := grid.columnFor small line.trimStart
  unfold depthOf
  rw [hlayout, hcloser, ← hcolumn]
  rfl

theorem columns_layoutLine (grid : s.blocks.OnGrid settings.indentUnit)
    (small : settings.indentUnit < Bits64.quarter) (base : s.mode = .base)
    (visible : line.trimStart ≠ []) :
    (s.layoutLine settings line).columns settings.tabSize =
      settings.indentUnit * s.depthOf settings.tabSize (s.layoutLine settings line) := by
  have hlayout := layoutLine_onGrid settings grid small base visible
  generalize s.depthOf settings.tabSize (s.layoutLine settings line) = depth at hlayout ⊢
  rw [hlayout, Text.columns_replicate _ _ (Text.startsVisible_trimStart line)]

theorem trimStart_ne_nil_of_visible {l : Lexeme} {rest : List Lexeme} (base : s.mode = .base)
    (first : s.visibleLexemes settings.tabSize (s.layoutLine settings line) = l :: rest) :
    line.trimStart ≠ [] := by
  intro hblank
  rw [layoutLine_of_blank settings base hblank] at first
  unfold visibleLexemes readLine at first
  rw [cutLine_nil] at first
  cases first

theorem depthOf_of_opener {l : Lexeme} {rest : List Lexeme} (base : s.mode = .base)
    (first : s.visibleLexemes settings.tabSize (s.layoutLine settings line) = l :: rest)
    (opener : l.cls = .keyword .opener) :
    s.depthOf settings.tabSize (s.layoutLine settings line) = s.blocks.opened.length := by
  have visible := trimStart_ne_nil_of_visible settings base first
  have hlayout := layoutLine_of_visible settings base visible
  rw [hlayout] at first ⊢
  unfold depthOf
  rw [leadsWithCloser_of_opener settings.tabSize base (isAllBlank_replicate _)
    (Mode.sameSide_replicate _) (Text.startsVisible_trimStart line) visible first opener]
  exact Nat.sub_zero _

theorem depthOf_of_divider {tabSize : Nat} {l : Lexeme} {rest : List Lexeme}
    (first : s.visibleLexemes tabSize line = l :: rest) (divide : s.DividersClose tabSize line)
    (divider : l.cls = .keyword .divider) :
    s.depthOf tabSize line = s.blocks.opened.length - 1 := by
  have htext := divide l (by rw [first]; exact List.mem_cons_self) divider
  have hcloser : Word.closers.contains l.text = true := by
    rcases htext with htext | htext
    · rw [htext]
      decide
    · rw [htext]
      decide
  unfold depthOf leadsWithCloser
  rw [first, List.head?_cons, Option.any_some, divider, hcloser]
  rfl

/-- A laid-out line that its keywords lead keeps the blocks on the grid. -/
theorem onGrid_readLine (grid : s.blocks.OnGrid settings.indentUnit)
    (small : settings.indentUnit < Bits64.quarter)
    (bounded : (s.layoutLine settings line).columns settings.tabSize < Bits64.quarter)
    (lead : s.KeywordsLead settings.tabSize (s.layoutLine settings line))
    (divide : s.DividersClose settings.tabSize (s.layoutLine settings line)) :
    (s.readLine settings.tabSize (s.layoutLine settings line)).2.blocks.OnGrid
      settings.indentUnit := by
  obtain ⟨htail, hhead⟩ := lead
  rw [blocks_readLine, ← keywords_visibleLexemes]
  cases first : s.visibleLexemes settings.tabSize (s.layoutLine settings line) with
  | nil => exact grid
  | cons l rest =>
      rw [first, List.tail_cons] at htail
      rw [first, List.head?_cons] at hhead
      rw [keywords_cons, Blocks.applyAll_append, applyAll_keywords_of_still _ _ htail]
      cases hrole : l.cls.role? with
      | none => exact grid
      | some role =>
          have hcls := TokenClass.role?_eq_some_iff.mp hrole
          have hbase : role ≠ .neutral → s.mode = .base := by
            intro hne
            refine hhead l rfl ?_
            unfold Lexeme.movesBlocks
            rw [hrole]
            exact decide_eq_true hne
          have hcolumn : role ≠ .neutral → _ := fun hne =>
            columns_layoutLine settings grid small (hbase hne)
              (trimStart_ne_nil_of_visible settings (hbase hne) first)
          refine grid.apply bounded ?_ ?_
          · rintro rfl
            rw [hcolumn (by decide), depthOf_of_opener settings (hbase (by decide)) first hcls]
          · rintro rfl
            rw [hcolumn (by decide), depthOf_of_divider first divide hcls]

end LineState

/-! ### Lines one after the other -/

namespace Document

variable (settings : Settings) (source : Text)

/-- The state before a line of the source while it is laid out, the first line being zero. -/
def stateBefore (i : Nat) : LineState :=
  ((LineState.start settings).layoutLines settings (source.lines.take i)).2

theorem length_layoutLines : (layoutLines settings source).length = source.lines.length :=
  LineState.length_layoutLines settings _ source.lines

variable {settings source}

theorem stateBefore_succ {i : Nat} (h : i < source.lines.length) :
    stateBefore settings source (i + 1) =
      ((stateBefore settings source i).readLine settings.tabSize
        ((stateBefore settings source i).layoutLine settings source.lines[i])).2 := by
  unfold stateBefore
  rw [List.take_add_one, List.getElem?_eq_getElem h, Option.toList_some,
    LineState.layoutLines_append, LineState.layoutLines_cons, LineState.layoutLines_nil]

theorem getElem_layoutLines {i : Nat} (h : i < (layoutLines settings source).length) {line : Text}
    (hline : source.lines[i]? = some line) :
    (layoutLines settings source)[i] = (stateBefore settings source i).layoutLine settings line := by
  have hget := LineState.getElem?_layoutLines settings (LineState.start settings) source.lines i
  rw [hline] at hget
  exact (List.getElem?_eq_some_iff.mp hget).2

/-- The open blocks are on the grid before every line. -/
theorem onGrid_stateBefore
    (small : settings.indentUnit < Bits64.quarter)
    (bounded : ∀ line ∈ layoutLines settings source, line.columns settings.tabSize < Bits64.quarter)
    (lead : ∀ i (h : i < (layoutLines settings source).length),
      (stateBefore settings source i).KeywordsLead settings.tabSize
        (layoutLines settings source)[i])
    (divide : ∀ i (h : i < (layoutLines settings source).length),
      (stateBefore settings source i).DividersClose settings.tabSize
        (layoutLines settings source)[i]) :
    ∀ i ≤ source.lines.length, (stateBefore settings source i).blocks.OnGrid settings.indentUnit := by
  intro i
  induction i with
  | zero =>
      intro _
      exact Blocks.onGrid_start small
  | succ i ih =>
      intro hi
      have hlines := length_layoutLines settings source
      have h : i < (layoutLines settings source).length := by omega
      have hlaidOut := getElem_layoutLines h (List.getElem?_eq_getElem hi)
      have hbounded := bounded _ (List.getElem_mem h)
      have hlead := lead i h
      have hdivide := divide i h
      rw [hlaidOut] at hbounded hlead hdivide
      rw [stateBefore_succ hi]
      exact LineState.onGrid_readLine settings (ih (by omega)) small hbounded hlead hdivide

/-- **Canonical layout.**  If the keywords that move blocks lead lines of ordinary code and the only
dividers are `else` and `elseif`, every line of ordinary code on which something can be seen is laid
out as its content behind one indent unit for each block open before it, or one unit less if a
closing word leads it. -/
theorem layout_on_grid (settings : Settings) (source : Text)
    (small : settings.indentUnit < Bits64.quarter)
    (bounded : ∀ line ∈ layoutLines settings source, line.columns settings.tabSize < Bits64.quarter)
    (lead : ∀ i (h : i < (layoutLines settings source).length),
      (stateBefore settings source i).KeywordsLead settings.tabSize
        (layoutLines settings source)[i])
    (divide : ∀ i (h : i < (layoutLines settings source).length),
      (stateBefore settings source i).DividersClose settings.tabSize
        (layoutLines settings source)[i]) :
    (layoutLines settings source).length = source.lines.length ∧
      ∀ i (h : i < (layoutLines settings source).length) line, source.lines[i]? = some line →
        (stateBefore settings source i).mode = .base → line.trimStart ≠ [] →
          (layoutLines settings source)[i] =
            List.replicate (settings.indentUnit * (stateBefore settings source i).depthOf
              settings.tabSize (layoutLines settings source)[i]) ' ' ++ line.trimStart := by
  have hlines := length_layoutLines settings source
  refine ⟨hlines, ?_⟩
  intro i h line hline base visible
  have hgrid := onGrid_stateBefore small bounded lead divide i (by omega)
  rw [getElem_layoutLines h hline]
  exact LineState.layoutLine_onGrid settings hgrid small base visible

/-- The `else` of an inner block is laid out one unit from the margin. -/
theorem layout_on_grid_of_else :
    ∃ h : 2 < (layoutLines {} "class A\nif x\n else".toList).length,
      (layoutLines {} "class A\nif x\n else".toList)[2] = "    else".toList := by
  obtain ⟨hlines, hgrid⟩ := layout_on_grid {} "class A\nif x\n else".toList (by decide)
    (by decide +kernel) (by decide +kernel) (by decide +kernel)
  have h : 2 < (layoutLines {} "class A\nif x\n else".toList).length := by
    rw [hlines]
    decide
  have hdepth : (stateBefore {} "class A\nif x\n else".toList 2).depthOf 4
      (layoutLines {} "class A\nif x\n else".toList)[2] = 1 := by
    revert h
    decide +kernel
  refine ⟨h, (hgrid 2 h " else".toList (by decide) (by decide +kernel) (by decide)).trans ?_⟩
  exact congrArg (fun depth => List.replicate (4 * depth) ' ' ++ "else".toList) hdepth

end Document

/-! ## Ascending columns

A line of ordinary code may hold any number of keywords in any order.  All of them open their blocks
at the column at which the line is laid out, which is a multiple of the indent unit and left of no
block that is open before the line.  So the blocks keep ascending from line to line, as long as a line
that starts inside a comment or a string, which is not laid out, opens and divides no block
(`ascends_readLine`, `ascends_stateBefore`). -/

namespace LineState

/-- No keyword on the line opens or divides a block. -/
def OpensNothing (tabSize : Nat) (s : LineState) (line : Text) : Prop :=
  ∀ l ∈ s.visibleLexemes tabSize line, l.cls ≠ .keyword .opener ∧ l.cls ≠ .keyword .divider

instance (tabSize : Nat) (s : LineState) (line : Text) : Decidable (s.OpensNothing tabSize line) :=
  inferInstanceAs (Decidable (∀ _ ∈ _, _))

variable (settings : Settings) {s : LineState} {line : Text}

theorem of_mem_keywords {n : Nat} {lexemes : List Lexeme} {k : KeywordRole × Nat}
    (mem : k ∈ keywords n lexemes) : k.2 = n ∧ ∃ l ∈ lexemes, l.cls = .keyword k.1 := by
  obtain ⟨l, hl, hk⟩ := List.mem_filterMap.mp mem
  obtain ⟨role, hrole, rfl⟩ := Option.map_eq_some_iff.mp hk
  exact ⟨rfl, l, hl, TokenClass.role?_eq_some_iff.mp hrole⟩

theorem exists_width (ascends : s.blocks.Ascends settings.indentUnit)
    (small : settings.indentUnit < Bits64.quarter) (base : s.mode = .base)
    (visible : line.trimStart ≠ []) :
    ∃ n, s.layoutLine settings line =
        List.replicate (settings.indentUnit * n) ' ' ++ line.trimStart ∧
      s.blocks.UpTo (settings.indentUnit * n : Nat) := by
  obtain ⟨n, hcolumn, hright⟩ := ascends.columnFor small line.trimStart
  refine ⟨n, ?_, hright⟩
  rw [← hcolumn]
  exact layoutLine_of_visible settings base visible

/-- A line that is laid out keeps the blocks ascending. -/
theorem ascends_readLine (ascends : s.blocks.Ascends settings.indentUnit)
    (small : settings.indentUnit < Bits64.quarter)
    (bounded : (s.layoutLine settings line).columns settings.tabSize < Bits64.quarter)
    (quiet : s.mode ≠ .base → s.OpensNothing settings.tabSize (s.layoutLine settings line)) :
    (s.readLine settings.tabSize (s.layoutLine settings line)).2.blocks.Ascends
      settings.indentUnit := by
  rw [blocks_readLine, ← keywords_visibleLexemes]
  rcases s.layoutLine_cases settings line with ⟨hopen, -⟩ | ⟨-, -, hlayout⟩ | ⟨base, visible, -⟩
  · refine ascends.applyAll_of_closing fun k hk => ?_
    obtain ⟨-, l, hl, hcls⟩ := of_mem_keywords hk
    obtain ⟨hopener, hdivider⟩ := quiet hopen l hl
    refine ⟨fun hrole => hopener ?_, fun hrole => hdivider ?_⟩
    · rw [hcls, hrole]
    · rw [hcls, hrole]
  · rw [hlayout]
    unfold visibleLexemes readLine
    rw [cutLine_nil]
    exact ascends
  · obtain ⟨n, hlayout, hright⟩ := exists_width settings ascends small base visible
    have hcolumns : (s.layoutLine settings line).columns settings.tabSize =
        settings.indentUnit * n := by
      rw [hlayout]
      exact Text.columns_replicate _ _ (Text.startsVisible_trimStart line)
    rw [hcolumns] at bounded ⊢
    exact ascends.applyAll bounded hright fun k hk => (of_mem_keywords hk).1

end LineState

namespace Document

variable {settings : Settings} {source : Text}

/-- The blocks ascend before every line, and behind the last one. -/
theorem ascends_stateBefore (small : settings.indentUnit < Bits64.quarter)
    (bounded : ∀ line ∈ layoutLines settings source, line.columns settings.tabSize < Bits64.quarter)
    (quiet : ∀ i (h : i < (layoutLines settings source).length),
      (stateBefore settings source i).mode ≠ .base →
        (stateBefore settings source i).OpensNothing settings.tabSize
          (layoutLines settings source)[i]) :
    ∀ i ≤ source.lines.length,
      (stateBefore settings source i).blocks.Ascends settings.indentUnit := by
  intro i
  induction i with
  | zero =>
      intro _
      exact Blocks.ascends_start small
  | succ i ih =>
      intro hi
      have hlines := length_layoutLines settings source
      have h : i < (layoutLines settings source).length := by omega
      have hlaidOut := getElem_layoutLines h (List.getElem?_eq_getElem hi)
      have hbounded := bounded _ (List.getElem_mem h)
      have hquiet := quiet i h
      rw [hlaidOut] at hbounded hquiet
      rw [stateBefore_succ hi]
      exact LineState.ascends_readLine settings (ih (by omega)) small hbounded hquiet

/-- **Columns ascend in units.**  If no line that starts inside a comment or a string opens or divides a
block, then before every line and behind the last one the columns of the open blocks, from the
outermost to the innermost, are multiples of the indent unit from the margin on and never decrease.
Every line of ordinary code on which something can be seen is laid out at a multiple of the unit that
is no less than the column of any block open before it. -/
theorem columns_ascend_in_units (settings : Settings) (source : Text)
    (small : settings.indentUnit < Bits64.quarter)
    (bounded : ∀ line ∈ layoutLines settings source, line.columns settings.tabSize < Bits64.quarter)
    (quiet : ∀ i (h : i < (layoutLines settings source).length),
      (stateBefore settings source i).mode ≠ .base →
        (stateBefore settings source i).OpensNothing settings.tabSize
          (layoutLines settings source)[i]) :
    (layoutLines settings source).length = source.lines.length ∧
      (∀ i ≤ source.lines.length,
        (∀ c ∈ (stateBefore settings source i).blocks.opened,
          0 ≤ c ∧ (settings.indentUnit : Int) ∣ c) ∧
        (stateBefore settings source i).blocks.opened.reverse.Pairwise (· ≤ ·)) ∧
      ∀ i (h : i < (layoutLines settings source).length) line, source.lines[i]? = some line →
        (stateBefore settings source i).mode = .base → line.trimStart ≠ [] →
          ∃ width, (layoutLines settings source)[i] = List.replicate width ' ' ++ line.trimStart ∧
            settings.indentUnit ∣ width ∧
            ∀ c ∈ (stateBefore settings source i).blocks.opened, c ≤ width := by
  have hlines := length_layoutLines settings source
  have hascends := ascends_stateBefore small bounded quiet
  refine ⟨hlines, fun i hi => ⟨fun c hc => ?_, ?_⟩, ?_⟩
  · obtain ⟨n, rfl, -⟩ := (hascends i hi).multiples c hc
    exact ⟨Int.natCast_nonneg _, Int.natCast_dvd_natCast.mpr (Nat.dvd_mul_right _ n)⟩
  · exact List.pairwise_reverse.mpr (hascends i hi).ordered
  · intro i h line hline base visible
    obtain ⟨n, hlayout, hright⟩ :=
      LineState.exists_width settings (hascends i (by omega)) small base visible
    rw [getElem_layoutLines h hline]
    exact ⟨_, hlayout, Nat.dvd_mul_right _ n, hright⟩

/-- Two blocks of one line share the margin; after they are closed, a third one is divided one unit
deeper, and a comment that starts there is closed in front of its `end`. -/
theorem columns_ascend_in_units_of_shared :
    let source : Text := "class A if b\nend end if c\ndetect e\n/* d\n*/ end".toList
    (stateBefore {} source 1).blocks.opened = [0, 0] ∧
      (stateBefore {} source 1).blocks.opened.reverse.Pairwise (· ≤ ·) ∧
      (stateBefore {} source 4).mode = .blockComment ∧
      (∀ c ∈ (stateBefore {} source 4).blocks.opened, 0 ≤ c ∧ (4 : Int) ∣ c) ∧
      ∃ h : 3 < (layoutLines {} source).length,
        ∃ width, (layoutLines {} source)[3] = List.replicate width ' ' ++ "/* d".toList ∧
          4 ∣ width ∧ ∀ c ∈ (stateBefore {} source 3).blocks.opened, c ≤ width := by
  intro source
  obtain ⟨hlines, hblocks, hwidths⟩ := columns_ascend_in_units {} source (by decide)
    (by decide +kernel) (by decide +kernel)
  have h : 3 < (layoutLines {} source).length := by
    rw [hlines]
    decide
  refine ⟨by decide +kernel, (hblocks 1 (by decide)).2, by decide +kernel,
    (hblocks 4 (by decide)).1, h, ?_⟩
  exact hwidths 3 h "/* d".toList (by decide) (by decide +kernel) (by decide)

end Document

end BlockLayout
