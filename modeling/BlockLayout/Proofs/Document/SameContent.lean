import BlockLayout.Proofs.Document.Canonical

/-! # What a layout depends on and keeps

After a state two lines are laid out alike exactly if they have the same content there: they are the
same line, or the state is in ordinary code and they differ in their leading blanks only
(`LineState.SameContent`, `layoutLine_eq_iff`).  Every line is read as it was laid out, so the state
before the next line does not depend on the old blanks either, and the same holds of lines one after
the other (`layoutLines_eq_iff`).

Main statements: `layout_eq_iff_sameContent`, `layout_keeps_content_iff`. -/

namespace BlockLayout

theorem Text.unlines_injective {terminated : Bool} {ls ls' : List Text}
    (free : ∀ l ∈ ls, '\n' ∉ l) (free' : ∀ l ∈ ls', '\n' ∉ l) (count : ls.length = ls'.length)
    (h : unlines terminated ls = unlines terminated ls') : ls = ls' := by
  have hjoin : ['\n'].intercalate ls = ['\n'].intercalate ls' := List.append_cancel_right h
  cases ls with
  | nil => exact (List.length_eq_zero_iff.mp count.symm).symm
  | cons l ls =>
      have hne : ls' ≠ [] := by
        rintro rfl
        cases count
      rw [← pieces_intercalate free (List.cons_ne_nil l ls), hjoin, pieces_intercalate free' hne]

namespace LineState

variable (settings : Settings) {s : LineState} {line line' : Text}

/-- The lines have the same content for a layout after the state. -/
def SameContent (s : LineState) (line line' : Text) : Prop :=
  line = line' ∨ s.mode = .base ∧ line.trimStart = line'.trimStart

instance (s : LineState) (line line' : Text) : Decidable (s.SameContent line line') :=
  inferInstanceAs (Decidable (_ ∨ _))

/-- Lines are laid out alike exactly if they have the same content. -/
theorem layoutLine_eq_iff :
    s.layoutLine settings line = s.layoutLine settings line' ↔ s.SameContent line line' := by
  constructor
  · intro h
    by_cases base : s.mode = .base
    · have htrim := congrArg Text.trimStart h
      rw [trimStart_layoutLine, trimStart_layoutLine] at htrim
      exact Or.inr ⟨base, htrim⟩
    · rw [layoutLine_of_open settings base, layoutLine_of_open settings base] at h
      exact Or.inl h
  · rintro (rfl | ⟨base, htrim⟩)
    · rfl
    · by_cases blank : line'.trimStart = []
      · rw [layoutLine_of_blank settings base (htrim.trans blank),
          layoutLine_of_blank settings base blank]
      · rw [layoutLine_of_visible settings base blank,
          layoutLine_of_visible settings base (htrim ▸ blank), htrim]

/-- Lines one after the other are laid out alike exactly if each pair of them has the same content
where its turn comes. -/
theorem layoutLines_eq_iff {lines lines' : List Text} (count : lines.length = lines'.length) :
    (s.layoutLines settings lines).1 = (s.layoutLines settings lines').1 ↔
      ∀ k line line', lines[k]? = some line → lines'[k]? = some line' →
        (s.layoutLines settings (lines.take k)).2.SameContent line line' := by
  induction lines generalizing s lines' with
  | nil =>
      obtain rfl := List.length_eq_zero_iff.mp count.symm
      simp
  | cons l lines ih =>
      obtain ⟨l', lines', rfl⟩ := List.exists_cons_of_length_eq_add_one count.symm
      have hcount : lines.length = lines'.length := Nat.succ.inj count
      rw [layoutLines_cons, layoutLines_cons, List.cons.injEq, layoutLine_eq_iff]
      constructor
      · rintro ⟨hline, hlines⟩ k line line' hk hk'
        rw [← (layoutLine_eq_iff settings).mpr hline] at hlines
        cases k with
        | zero =>
            obtain rfl := Option.some.inj hk
            obtain rfl := Option.some.inj hk'
            exact hline
        | succ k => exact (ih hcount).mp hlines k line line' hk hk'
      · intro same
        have hline : s.SameContent l l' := same 0 l l' rfl rfl
        rw [← (layoutLine_eq_iff settings).mpr hline]
        refine ⟨hline, (ih hcount).mpr fun k line line' hk hk' => ?_⟩
        exact same (k + 1) line line' hk hk'

end LineState

namespace Document

variable (settings : Settings) {source source' : Text}

theorem not_mem_of_mem_layoutLines {l : Text} (h : l ∈ layoutLines settings source) : '\n' ∉ l := by
  obtain ⟨earlier, line, later, hlines, rfl⟩ := (LineState.mem_layoutLines_iff settings _).mp h
  refine LineState.not_mem_layoutLine settings _ (Text.not_mem_of_mem_rows (t := source) ?_)
  rw [← Text.lines_append, hlines]
  simp

/-- **The old indentation plays no part.**  Two sources with the same number of lines that both end or
both do not end with a line feed have the same layout exactly if their lines have the same content:
each pair of lines is the same, or differs in leading blanks only and starts in ordinary code while
the first source is laid out. -/
theorem layout_eq_iff_sameContent (ends : source.endsLine = source'.endsLine)
    (count : source.lines.length = source'.lines.length) :
    layout settings source = layout settings source' ↔
      ∀ k line line', source.lines[k]? = some line → source'.lines[k]? = some line' →
        (stateBefore settings source k).SameContent line line' := by
  refine Iff.trans ?_ (LineState.layoutLines_eq_iff settings count)
  unfold layout
  rw [← ends]
  constructor
  · refine Text.unlines_injective (fun l => not_mem_of_mem_layoutLines settings)
      (fun l => not_mem_of_mem_layoutLines settings) ?_
    rw [length_layoutLines, length_layoutLines, count]
  · exact congrArg (Text.unlines source.endsLine)

/-- Blanks of any kind in front of lines of ordinary code, but not inside of a comment. -/
theorem layout_eq_of_other_blanks :
    let source : Text := "if a\n/* b\n  c */\n say d\n\nend".toList
    let source' : Text := "\u3000if a\n\t/* b\n  c */\nsay d\n \t\n    end".toList
    source.endsLine = source'.endsLine ∧ source.lines.length = source'.lines.length ∧
      layout {} source = layout {} source' := by
  intro source source'
  have ends : source.endsLine = source'.endsLine := by decide
  have count : source.lines.length = source'.lines.length := by decide
  refine ⟨ends, count, (layout_eq_iff_sameContent {} ends count).mpr ?_⟩
  have same : ∀ k < source.lines.length, ∀ line ∈ source.lines[k]?, ∀ line' ∈ source'.lines[k]?,
      (stateBefore {} source k).SameContent line line' := by
    decide +kernel
  intro k line line' hk hk'
  exact same k (List.getElem?_eq_some_iff.mp hk).1 line hk line' hk'

end Document

/-! ## What a layout keeps

A layout has as many pieces between line feeds as the source, and each has the content of the row that
it is laid out from (`getElem?_pieces_layout`, `sameContent_layoutLine`).  The row is the piece of the
source but for a carriage return before the line feed, which comes back in no layout
(`sameContent_return_iff`).  So all the content of a source is kept exactly if every piece that ends
with such a carriage return is a blank one of ordinary code (`layout_keeps_content_iff`). -/

namespace Text

theorem getElem?_dropReturns : ∀ (ps : List Text) (k : Nat),
    (dropReturns ps)[k]? = if k + 1 < ps.length then ps[k]?.map dropReturn else ps[k]?
  | [], k => by simp [dropReturns]
  | [p], k => by simp [dropReturns]
  | p :: q :: ps, 0 => by simp [dropReturns]
  | p :: q :: ps, k + 1 => by
      rw [dropReturns, List.getElem?_cons_succ, getElem?_dropReturns (q :: ps) k,
        List.getElem?_cons_succ]
      simp only [List.length_cons, Nat.add_lt_add_iff_right]

theorem take_rows (t : Text) {k : Nat} (h : k < t.rows.length) : t.rows.take k = t.lines.take k := by
  have hrows := lines_append t
  have hlength := congrArg List.length hrows
  rw [List.length_append] at hlength
  have hlast : (if t.pieces.getLast? = some [] then [([] : Text)] else []).length ≤ 1 := by
    split
    · exact Nat.le_refl 1
    · exact Nat.zero_le 1
  rw [← hrows, List.take_append_of_le_length (by omega)]

end Text

namespace LineState

variable (settings : Settings) {s : LineState}

theorem sameContent_layoutLine (line : Text) : s.SameContent line (s.layoutLine settings line) := by
  by_cases base : s.mode = .base
  · exact Or.inr ⟨base, (s.trimStart_layoutLine settings line).symm⟩
  · exact Or.inl (layoutLine_of_open settings base line).symm

/-- A line that is laid out without the carriage return at its end has the same content only if it is a
blank line of ordinary code. -/
theorem sameContent_return_iff {line : Text} :
    s.SameContent (line ++ ['\r']) (s.layoutLine settings line) ↔
      s.mode = .base ∧ Text.isAllBlank (line ++ ['\r']) = true := by
  have htrim := s.trimStart_layoutLine settings line
  rw [← Text.trimStart_eq_nil_iff]
  constructor
  · intro h
    have hcontent : Text.trimStart (line ++ ['\r']) = line.trimStart := by
      rcases h with h | ⟨-, h⟩
      · rw [h, htrim]
      · rw [h, htrim]
    have hblank : line.trimStart = [] := by
      refine Decidable.byContradiction fun visible => ?_
      rw [Text.trimStart_append_of_visible visible] at hcontent
      exact absurd (List.self_eq_append_right.mp hcontent.symm) (List.cons_ne_nil _ _)
    refine ⟨Decidable.byContradiction fun opened => ?_, hcontent.trans hblank⟩
    rw [layoutLine_of_open settings opened] at h
    rcases h with h | ⟨base, -⟩
    · exact absurd (List.self_eq_append_right.mp h.symm) (List.cons_ne_nil _ _)
    · exact opened base
  · rintro ⟨base, blank⟩
    refine Or.inr ⟨base, ?_⟩
    have hall := Text.trimStart_eq_nil_iff.mp blank
    unfold Text.isAllBlank at hall
    rw [List.all_append, Bool.and_eq_true] at hall
    rw [blank, htrim, Text.trimStart_eq_nil_iff.mpr hall.1]

end LineState

namespace Document

variable (settings : Settings) (source : Text)

theorem getElem?_pieces_layout (k : Nat) :
    (layout settings source).pieces[k]? =
      source.rows[k]?.map fun row => (stateBefore settings source k).layoutLine settings row := by
  rw [pieces_layout, layoutRows, LineState.getElem?_layoutLines]
  by_cases hk : k < source.rows.length
  · unfold stateBefore
    rw [Text.take_rows source hk]
  · rw [List.getElem?_eq_none (Nat.le_of_not_lt hk)]
    rfl

theorem length_pieces_layout : (layout settings source).pieces.length = source.pieces.length := by
  rw [pieces_layout, layoutRows, LineState.length_layoutLines]
  exact Text.length_dropReturns source.pieces

/-- Between its line feeds a layout has pieces with the content of the source's. -/
def KeepsContent : Prop :=
  (layout settings source).pieces.length = source.pieces.length ∧
    ∀ k piece laidOut, source.pieces[k]? = some piece →
      (layout settings source).pieces[k]? = some laidOut →
      (stateBefore settings source k).SameContent piece laidOut

theorem sameContent_piece_iff {k : Nat} {piece laidOut : Text}
    (hpiece : source.pieces[k]? = some piece)
    (hlaidOut : (layout settings source).pieces[k]? = some laidOut) :
    (stateBefore settings source k).SameContent piece laidOut ↔
      (source.pieces.dropLast[k]? = some piece → ['\r'] <:+ piece →
        (stateBefore settings source k).mode = .base ∧ piece.isAllBlank = true) := by
  have hrow := Text.getElem?_dropReturns source.pieces k
  rw [getElem?_pieces_layout, Text.rows, hrow, hpiece] at hlaidOut
  rw [List.getElem?_dropLast, hpiece]
  by_cases hlast : k + 1 < source.pieces.length
  · rw [if_pos hlast] at hlaidOut
    rw [if_pos (by omega)]
    obtain rfl := Option.some.inj hlaidOut
    by_cases hreturn : ['\r'] <:+ piece
    · obtain ⟨line, rfl⟩ := hreturn
      rw [Text.dropReturn_append, LineState.sameContent_return_iff]
      exact ⟨fun h _ _ => h, fun h => h rfl ⟨line, rfl⟩⟩
    · rw [Text.dropReturn_eq_self_iff.mpr hreturn]
      exact ⟨fun _ _ h => absurd h hreturn, fun _ => LineState.sameContent_layoutLine settings piece⟩
  · rw [if_neg hlast] at hlaidOut
    rw [if_neg (by omega)]
    obtain rfl := Option.some.inj hlaidOut
    exact ⟨fun _ h => absurd h (Option.some_ne_none piece).symm, fun _ => LineState.sameContent_layoutLine settings piece⟩

/-- The carriage returns before line feeds are all that can be lost. -/
theorem keepsContent_iff :
    KeepsContent settings source ↔
      ∀ k (piece : Text), source.pieces.dropLast[k]? = some piece → ['\r'] <:+ piece →
        (stateBefore settings source k).mode = .base ∧ piece.isAllBlank = true := by
  have count := length_pieces_layout settings source
  constructor
  · rintro ⟨-, kept⟩ k piece hdrop
    have hpiece : source.pieces[k]? = some piece := by
      rw [List.getElem?_dropLast] at hdrop
      split at hdrop
      · exact hdrop
      · cases hdrop
    have hlaidOut := List.getElem?_eq_getElem (count.symm ▸ (List.getElem?_eq_some_iff.mp hpiece).1)
    exact (sameContent_piece_iff settings source hpiece hlaidOut).mp
      (kept k piece _ hpiece hlaidOut) hdrop
  · intro h
    refine ⟨count, fun k piece laidOut hpiece hlaidOut => ?_⟩
    exact (sameContent_piece_iff settings source hpiece hlaidOut).mpr (h k piece)

/-- **What a layout keeps.**  A layout has as many pieces as the source, and the content of its rows.
It has the content of the pieces, carriage returns before line feeds included, exactly if every piece
that ends with one is a blank piece of ordinary code; in particular if there is none. -/
theorem layout_keeps_content_iff :
    (layout settings source).pieces.length = source.pieces.length ∧
    (∀ k row laidOut, source.rows[k]? = some row →
      (layout settings source).pieces[k]? = some laidOut →
      (stateBefore settings source k).SameContent row laidOut) ∧
    (KeepsContent settings source ↔
      ∀ k (piece : Text), source.pieces.dropLast[k]? = some piece → ['\r'] <:+ piece →
        (stateBefore settings source k).mode = .base ∧ piece.isAllBlank = true) ∧
    (¬ ['\r', '\n'] <:+: source → KeepsContent settings source) := by
  refine ⟨length_pieces_layout settings source, fun k row laidOut hrow hlaidOut => ?_,
    keepsContent_iff settings source, fun free => ?_⟩
  · rw [getElem?_pieces_layout, hrow] at hlaidOut
    obtain rfl := Option.some.inj hlaidOut
    exact LineState.sameContent_layoutLine settings row
  · refine (keepsContent_iff settings source).mpr fun k piece hdrop hreturn => ?_
    have hreturns := Text.infix_iff (e := ['\r']) (by decide) source
    exact absurd (hreturns.mpr ⟨piece, List.mem_of_getElem? hdrop, hreturn⟩) free

/-- A comment over several lines, each ended by a carriage return and a line feed, loses the carriage
returns. -/
theorem comment_loses_returns : ¬ KeepsContent {} "/*\r\na\r\n*/".toList := by
  rintro ⟨-, kept⟩
  exact absurd (kept 1 "a\r".toList "a".toList (by decide) (by decide +kernel)) (by decide +kernel)

end Document

end BlockLayout
