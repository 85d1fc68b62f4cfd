import BlockLayout.Document.State
import BlockLayout.Proofs.Text.Pieces

/-! # Laid-out lines

What laying out does to a line, and to a text through its rows.  A line that does not start in
ordinary code stays, a blank one becomes empty, any other keeps its content behind new blanks.
Laying out keeps what follows the leading blanks (`trimStart_layoutLine`) and a second time changes
nothing (`layoutLine_layoutLine`).

The pieces of a laid-out text are its rows laid out one after the other (`pieces_layout`): an empty
row stays empty, so an unfinished last line needs no case of its own.

Main statement: `layout_idempotent_iff`. -/

namespace BlockLayout

namespace LineState

variable (settings : Settings) (s : LineState)

/-! ### One line -/

theorem layoutLine_of_open {s : LineState} (h : s.mode ≠ .base) (line : Text) :
    s.layoutLine settings line = line := by
  unfold layoutLine
  split
  · rename_i hm _
    exact absurd hm h
  · rename_i hm _
    exact absurd hm h
  · rfl

theorem layoutLine_of_blank {s : LineState} (h : s.mode = .base) {line : Text}
    (blank : line.trimStart = []) : s.layoutLine settings line = [] := by
  unfold layoutLine
  rw [h, blank]

theorem layoutLine_of_visible {s : LineState} (h : s.mode = .base) {line : Text}
    (visible : line.trimStart ≠ []) :
    s.layoutLine settings line =
      List.replicate (s.columnFor settings line.trimStart) ' ' ++ line.trimStart := by
  obtain ⟨c, t, hct⟩ := List.exists_cons_of_ne_nil visible
  unfold layoutLine
  rw [h, hct]

theorem isAllBlank_replicate (n : Nat) : Text.isAllBlank (List.replicate n ' ') = true := by
  rw [Text.isAllBlank_iff]
  intro c hc
  rw [(List.mem_replicate.mp hc).2]
  decide

/-- The ways in which a line is laid out. -/
theorem layoutLine_cases (line : Text) :
    (s.mode ≠ .base ∧ s.layoutLine settings line = line) ∨
      (s.mode = .base ∧ line.trimStart = [] ∧ s.layoutLine settings line = []) ∨
      (s.mode = .base ∧ line.trimStart ≠ [] ∧ s.layoutLine settings line =
        List.replicate (s.columnFor settings line.trimStart) ' ' ++ line.trimStart) := by
  by_cases hm : s.mode = .base
  · by_cases hb : line.trimStart = []
    · exact Or.inr (Or.inl ⟨hm, hb, layoutLine_of_blank settings hm hb⟩)
    · exact Or.inr (Or.inr ⟨hm, hb, layoutLine_of_visible settings hm hb⟩)
  · exact Or.inl ⟨hm, layoutLine_of_open settings hm line⟩

/-- Laying a line out keeps what follows its leading blanks. -/
@[simp] theorem trimStart_layoutLine (line : Text) :
    (s.layoutLine settings line).trimStart = line.trimStart := by
  rcases s.layoutLine_cases settings line with ⟨-, h⟩ | ⟨-, hb, h⟩ | ⟨-, -, h⟩
  · rw [h]
  · rw [h, hb]
    rfl
  · rw [h]
    exact Text.trimStart_append (isAllBlank_replicate _) (Text.startsVisible_trimStart line)

@[simp] theorem layoutLine_layoutLine (line : Text) :
    s.layoutLine settings (s.layoutLine settings line) = s.layoutLine settings line := by
  have htrim := s.trimStart_layoutLine settings line
  rcases s.layoutLine_cases settings line with ⟨hm, -⟩ | ⟨hm, hb, h⟩ | ⟨hm, hv, h⟩
  · exact layoutLine_of_open settings hm _
  · rw [h]
    exact layoutLine_of_blank settings hm rfl
  · rw [← htrim] at hv
    rw [layoutLine_of_visible settings hm hv, htrim, h]

@[simp] theorem layoutLine_nil : s.layoutLine settings [] = [] := by
  rcases s.layoutLine_cases settings [] with ⟨-, h⟩ | ⟨-, -, h⟩ | ⟨-, hv, -⟩
  · exact h
  · exact h
  · exact absurd rfl hv

theorem layoutLine_eq_nil_iff {line : Text} :
    s.layoutLine settings line = [] ↔ line = [] ∨ s.mode = .base ∧ line.trimStart = [] := by
  constructor
  · intro h
    rcases s.layoutLine_cases settings line with ⟨-, hl⟩ | ⟨hm, hb, -⟩ | ⟨-, hv, hl⟩
    · rw [hl] at h
      exact Or.inl h
    · exact Or.inr ⟨hm, hb⟩
    · rw [hl] at h
      exact absurd (List.append_eq_nil_iff.mp h).2 hv
  · rintro (rfl | ⟨hm, hb⟩)
    · exact layoutLine_nil settings s
    · exact layoutLine_of_blank settings hm hb

theorem not_mem_layoutLine {line : Text} (h : '\n' ∉ line) :
    '\n' ∉ s.layoutLine settings line := by
  have hcontent : '\n' ∉ line.trimStart := fun hm => h (List.dropWhile_subset _ hm)
  rcases s.layoutLine_cases settings line with ⟨-, hl⟩ | ⟨-, -, hl⟩ | ⟨-, -, hl⟩
  · rw [hl]
    exact h
  · rw [hl]
    exact List.not_mem_nil
  · rw [hl]
    intro hm
    rcases List.mem_append.mp hm with hm | hm
    · exact absurd (List.mem_replicate.mp hm).2 (by decide)
    · exact hcontent hm

/-! ### Lines one after the other -/

@[simp] theorem layoutLines_nil : s.layoutLines settings [] = ([], s) := rfl

theorem layoutLines_cons (line : Text) (lines : List Text) :
    s.layoutLines settings (line :: lines) =
      (s.layoutLine settings line ::
          ((s.readLine settings.tabSize (s.layoutLine settings line)).2.layoutLines settings lines).1,
        ((s.readLine settings.tabSize (s.layoutLine settings line)).2.layoutLines
          settings lines).2) := rfl

theorem layoutLines_append (front back : List Text) :
    s.layoutLines settings (front ++ back) =
      ((s.layoutLines settings front).1 ++
          ((s.layoutLines settings front).2.layoutLines settings back).1,
        ((s.layoutLines settings front).2.layoutLines settings back).2) := by
  induction front generalizing s with
  | nil => rfl
  | cons line front ih => rw [List.cons_append, layoutLines_cons, layoutLines_cons, ih]; rfl

@[simp] theorem length_layoutLines (lines : List Text) :
    (s.layoutLines settings lines).1.length = lines.length := by
  induction lines generalizing s with
  | nil => rfl
  | cons line lines ih => rw [layoutLines_cons, List.length_cons, List.length_cons, ih]

theorem getElem?_layoutLines (lines : List Text) (i : Nat) :
    (s.layoutLines settings lines).1[i]? =
      lines[i]?.map fun line => (s.layoutLines settings (lines.take i)).2.layoutLine settings line := by
  induction lines generalizing s i with
  | nil => rfl
  | cons line lines ih =>
      rw [layoutLines_cons]
      cases i with
      | zero => rfl
      | succ i =>
          rw [List.getElem?_cons_succ, List.getElem?_cons_succ, List.take_succ_cons,
            layoutLines_cons, ih]

theorem mem_layoutLines_iff {lines : List Text} {l : Text} :
    l ∈ (s.layoutLines settings lines).1 ↔
      ∃ earlier line later, lines = earlier ++ line :: later ∧
        l = (s.layoutLines settings earlier).2.layoutLine settings line := by
  constructor
  · intro h
    induction lines generalizing s with
    | nil => cases h
    | cons line lines ih =>
        rw [layoutLines_cons] at h
        rcases List.mem_cons.mp h with rfl | h
        · exact ⟨[], line, lines, rfl, rfl⟩
        · obtain ⟨earlier, m, later, rfl, rfl⟩ := ih _ h
          exact ⟨line :: earlier, m, later, rfl, rfl⟩
  · rintro ⟨earlier, line, later, rfl, rfl⟩
    rw [layoutLines_append, layoutLines_cons]
    exact List.mem_append_right _ List.mem_cons_self

theorem dropLast_layoutLines (lines : List Text) :
    (s.layoutLines settings lines).1.dropLast = (s.layoutLines settings lines.dropLast).1 := by
  rcases List.eq_nil_or_concat lines with rfl | ⟨front, last, rfl⟩
  · rfl
  · rw [List.concat_eq_append, List.dropLast_concat, layoutLines_append, layoutLines_cons,
      layoutLines_nil, List.dropLast_concat]

/-- Laid-out lines are laid out already. -/
theorem layoutLines_layoutLines (lines : List Text) :
    s.layoutLines settings (s.layoutLines settings lines).1 = s.layoutLines settings lines := by
  induction lines generalizing s with
  | nil => rfl
  | cons line lines ih =>
      rw [layoutLines_cons, layoutLines_cons, layoutLine_layoutLine, ih]

end LineState

/-! ### Texts -/

namespace Document

variable (settings : Settings) (source : Text)

/-- The rows of a source as they are laid out, and the state that the last one leaves. -/
def layoutRows : List Text × LineState :=
  (LineState.start settings).layoutLines settings source.rows

theorem layoutRows_ne_nil : (layoutRows settings source).1 ≠ [] := by
  intro h
  have hlen := congrArg List.length h
  unfold layoutRows at hlen
  rw [LineState.length_layoutLines] at hlen
  exact Text.dropReturns_ne_nil (Text.pieces_ne_nil source) (List.length_eq_zero_iff.mp hlen)

theorem layout_eq : layout settings source = ['\n'].intercalate (layoutRows settings source).1 := by
  by_cases hnil : source = []
  · subst hnil
    rfl
  · have hrows := Text.lines_append source
    have hend := Text.endsLine_iff hnil
    unfold layout layoutLines layoutRows Text.unlines
    rw [← hrows]
    by_cases hlast : source.pieces.getLast? = some []
    · rw [if_pos hlast, if_pos (hend.mpr hlast), LineState.layoutLines_append,
        LineState.layoutLines_cons, LineState.layoutLine_nil, LineState.layoutLines_nil]
      refine (Text.intercalate_append_nil fun hlines => ?_).symm
      have hlen := congrArg List.length hlines
      rw [LineState.length_layoutLines] at hlen
      rw [List.length_eq_zero_iff.mp hlen, if_pos hlast] at hrows
      exact hnil (Text.eq_nil_of_rows hrows.symm)
    · rw [if_neg hlast, if_neg (fun h => hlast (hend.mp h)), List.append_nil, List.append_nil]

/-- The pieces of a laid-out text are its rows, laid out. -/
theorem pieces_layout : (layout settings source).pieces = (layoutRows settings source).1 := by
  rw [layout_eq]
  refine Text.pieces_intercalate (fun p hp => ?_) (layoutRows_ne_nil settings source)
  obtain ⟨earlier, line, later, hrows, rfl⟩ := (LineState.mem_layoutLines_iff settings _).mp hp
  have hline : line ∈ source.rows := by
    rw [hrows]
    exact List.mem_append_right _ List.mem_cons_self
  exact LineState.not_mem_layoutLine settings _ (Text.not_mem_of_mem_rows hline)

end Document

/-! ## Laying out twice

A second layout meets the laid-out rows in the same states and leaves them alone, so all it can
change is the reading of lines: a laid-out line that ends with a carriage return loses it to the
line feed behind it.  Laying out is idempotent exactly on the sources whose layout has no carriage
return before a line feed (`layout_idempotent_iff`), among them every source without two carriage
returns before a line feed; a source with two may change again (`layout_twice_changes`). -/

namespace LineState

variable (settings : Settings)

theorem dropReturn_eq_of_layoutLine {s : LineState} {p : Text}
    (h : s.layoutLine settings p.dropReturn = p) : p.dropReturn = p := by
  by_cases hr : ['\r'] <:+ p
  · obtain ⟨q, rfl⟩ := hr
    rw [Text.dropReturn_append] at h ⊢
    have htrim := s.trimStart_layoutLine settings q
    rcases s.layoutLine_cases settings q with ⟨-, hl⟩ | ⟨-, -, hl⟩ | ⟨-, hv, -⟩
    · rw [hl] at h
      exact h
    · rw [hl] at h
      exact absurd h.symm (by simp)
    · rw [h, Text.trimStart_append_of_visible hv] at htrim
      have hlen := congrArg List.length htrim
      simp at hlen
  · exact Text.dropReturn_eq_self_iff.mpr hr

/-- Rows that are laid out already stay as pieces exactly if they lose no carriage return. -/
theorem layoutLines_dropReturns_iff : ∀ {s : LineState} {ps : List Text},
    (s.layoutLines settings ps).1 = ps →
      ((s.layoutLines settings (Text.dropReturns ps)).1 = ps ↔ Text.dropReturns ps = ps)
  | _, [], _ => by simp [Text.dropReturns]
  | _, [p], h => by
      constructor
      · intro _
        rfl
      · intro _
        exact h
  | s, p :: q :: ps, h => by
      rw [layoutLines_cons] at h
      obtain ⟨hp, hps⟩ := List.cons.inj h
      rw [Text.dropReturns, layoutLines_cons, List.cons.injEq, List.cons.injEq]
      constructor
      · rintro ⟨hp', hps'⟩
        rw [hp'] at hps'
        rw [hp] at hps
        exact ⟨dropReturn_eq_of_layoutLine settings hp',
          (layoutLines_dropReturns_iff hps).mp hps'⟩
      · rintro ⟨hp', hps'⟩
        rw [hp', hps']
        exact ⟨hp, hps⟩

theorem return_suffix_layoutLine_iff {s : LineState} {line : Text} :
    ['\r'] <:+ s.layoutLine settings line ↔
      ['\r'] <:+ line ∧ ¬ (s.mode = .base ∧ line.trimStart = []) := by
  rcases s.layoutLine_cases settings line with ⟨hm, hl⟩ | ⟨hm, hb, hl⟩ | ⟨-, hv, hl⟩
  · rw [hl]
    constructor
    · intro h
      exact ⟨h, fun hbase => hm hbase.1⟩
    · intro h
      exact h.1
  · rw [hl]
    constructor
    · intro h
      exact absurd h.length_le (by simp)
    · intro h
      exact absurd ⟨hm, hb⟩ h.2
  · rw [hl]
    have hcontent : 1 ≤ line.trimStart.length := List.length_pos_iff.mpr hv
    have hline : line.trimStart <:+ line := List.dropWhile_suffix _
    constructor
    · intro h
      have hreturn : ['\r'] <:+ line.trimStart :=
        List.suffix_of_suffix_length_le h (List.suffix_append _ _) hcontent
      exact ⟨hreturn.trans hline, fun hbase => hv hbase.2⟩
    · intro h
      have hreturn : ['\r'] <:+ line.trimStart :=
        List.suffix_of_suffix_length_le h.1 hline hcontent
      exact hreturn.trans (List.suffix_append _ _)

end LineState

namespace Document

variable (settings : Settings) (source : Text)

theorem layout_layout_eq_iff_rows :
    layout settings (layout settings source) = layout settings source ↔
      (layout settings source).rows = (layout settings source).pieces := by
  have hstable := LineState.layoutLines_layoutLines settings (LineState.start settings) source.rows
  have hps := pieces_layout settings source
  have hstay : ((LineState.start settings).layoutLines settings (layout settings source).pieces).1 =
      (layout settings source).pieces := by
    rw [hps]
    exact congrArg Prod.fst hstable
  have hrows := LineState.layoutLines_dropReturns_iff settings hstay
  unfold Text.rows
  rw [← hrows]
  constructor
  · intro h
    have := pieces_layout settings (layout settings source)
    rw [h] at this
    exact this.symm
  · intro h
    rw [layout_eq settings (layout settings source)]
    exact (congrArg _ h).trans (Text.intercalate_pieces _)

/-- Where a carriage return stands before a line feed in the layout. -/
theorem return_infix_layout_iff :
    ['\r', '\n'] <:+: layout settings source ↔
      ∃ earlier row later, source.rows.dropLast = earlier ++ row :: later ∧ ['\r'] <:+ row ∧
        ¬ (((LineState.start settings).layoutLines settings earlier).2.mode = .base ∧
          Text.trimStart row = []) := by
  have hinfix := Text.infix_iff (e := ['\r']) (by decide) (layout settings source)
  rw [pieces_layout, layoutRows, LineState.dropLast_layoutLines] at hinfix
  rw [show ['\r', '\n'] = ['\r'] ++ ['\n'] from rfl, hinfix]
  constructor
  · rintro ⟨l, hl, hreturn⟩
    obtain ⟨earlier, row, later, hrows, rfl⟩ := (LineState.mem_layoutLines_iff settings _).mp hl
    exact ⟨earlier, row, later, hrows, (LineState.return_suffix_layoutLine_iff settings).mp hreturn⟩
  · rintro ⟨earlier, row, later, hrows, hreturn⟩
    refine ⟨_, (LineState.mem_layoutLines_iff settings _).mpr ⟨earlier, row, later, hrows, rfl⟩, ?_⟩
    exact (LineState.return_suffix_layoutLine_iff settings).mpr hreturn

theorem returns_infix_of_layout (h : ['\r', '\n'] <:+: layout settings source) :
    ['\r', '\r', '\n'] <:+: source := by
  obtain ⟨earlier, row, later, hrows, hreturn, -⟩ := (return_infix_layout_iff settings source).mp h
  have hrow : row ∈ (Text.dropReturns source.pieces).dropLast := by
    rw [show (Text.dropReturns source.pieces).dropLast = earlier ++ row :: later from hrows]
    exact List.mem_append_right _ List.mem_cons_self
  obtain ⟨p, hp, rfl⟩ := Text.exists_of_mem_dropLast_dropReturns hrow
  exact (Text.infix_iff (e := ['\r', '\r']) (by decide) _).mpr
    ⟨p, hp, Text.returns_suffix_of_dropReturn hreturn⟩

/-- **Laying out twice.**  A second layout changes nothing exactly if the first has no carriage
return before a line feed; that is, if no row that a line feed ends still ends with a carriage
return, blank rows of ordinary code apart.  In particular it changes nothing if the source has no two
carriage returns before a line feed. -/
theorem layout_idempotent_iff :
    (layout settings (layout settings source) = layout settings source ↔
      ¬ ['\r', '\n'] <:+: layout settings source) ∧
    (layout settings (layout settings source) = layout settings source ↔
      ∀ earlier row later, source.rows.dropLast = earlier ++ row :: later → ['\r'] <:+ row →
        ((LineState.start settings).layoutLines settings earlier).2.mode = .base ∧
          Text.trimStart row = []) ∧
    (¬ ['\r', '\r', '\n'] <:+: source →
      layout settings (layout settings source) = layout settings source) := by
  have hiff : layout settings (layout settings source) = layout settings source ↔
      ¬ ['\r', '\n'] <:+: layout settings source :=
    (layout_layout_eq_iff_rows settings source).trans (Text.rows_eq_pieces_iff _)
  refine ⟨hiff, ?_, ?_⟩
  · rw [hiff, return_infix_layout_iff]
    constructor
    · intro hnone earlier row later hrows hreturn
      exact Classical.not_not.mp fun hkept => hnone ⟨earlier, row, later, hrows, hreturn, hkept⟩
    · rintro hall ⟨earlier, row, later, hrows, hreturn, hkept⟩
      exact hkept (hall earlier row later hrows hreturn)
  · intro h
    exact hiff.mpr fun hlayout => h (returns_infix_of_layout settings source hlayout)

/-- A line that ends with two carriage returns and a line feed loses one of them at every layout. -/
theorem layout_twice_changes :
    layout {} (layout {} "a\r\r\n".toList) ≠ layout {} "a\r\r\n".toList := by
  decide

end Document

end BlockLayout
