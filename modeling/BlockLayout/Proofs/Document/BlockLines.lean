import BlockLayout.Proofs.Document.Canonical
import Mathlib.Data.Nat.Init

/-! # The lines of one block

A block has an opening line, lines that a divider leads, and a line that a closer leads
(`Document.Continues`).  While a document is laid out, the recorded column of an open block is the
column of its last such line (`column_above`).  A closing word stands at that column.  So do `else`
and `elseif`, but `detect` and `always` are laid out like the body of the block, one unit deeper, and
the lines of the block that follow line up with them: the lines of a block stand one unit deeper for
each `detect` or `always` on the way (`column_of_continues`).

Only keywords that lead their lines are considered, as for the canonical layout, but the blocks need
not be on a grid.  Main statement: `block_lines_column`. -/

namespace BlockLayout

/-! ### Dividers that do not line up -/

/-- The dividers that do not line up with the line that opened the block. -/
def Word.innerDividers : List Text := ["detect".toList, "always".toList]

/-- The lexeme is a divider that does not line up. -/
def Lexeme.isInnerDivider (l : Lexeme) : Bool :=
  l.cls == .keyword .divider && Word.innerDividers.contains l.text

theorem Word.closers_eq_not_inner {word : Text} {cls : TokenClass} (h : classOf? word = some cls)
    (ends : cls = .keyword .divider ∨ cls = .keyword .closer) :
    closers.contains word = !Lexeme.isInnerDivider ⟨cls, word⟩ := by
  have hall : ∀ entry ∈ reserved,
      entry.2 = .keyword .divider ∨ entry.2 = .keyword .closer →
        closers.contains entry.1 = !Lexeme.isInnerDivider ⟨entry.2, entry.1⟩ := by decide
  exact hall _ (mem_reserved h) ends

namespace Blocks

open Bits64

variable {unit : Nat} {b : Blocks}

/-- A keyword changes the column of an open block only if it is a divider and the block is the
innermost one. -/
theorem opened_apply_above {inner outer : List Int} {column : Int}
    (h : b.opened = inner ++ column :: outer) (role : KeywordRole) (n : Nat)
    (kept : outer.length < (b.apply role n).opened.length) :
    ∃ inner', (b.apply role n).opened =
      inner' ++ (if inner = [] ∧ role = .divider then signed n else column) :: outer := by
  obtain ⟨root, opened⟩ := b
  obtain rfl : opened = inner ++ column :: outer := h
  cases role with
  | opener => exact ⟨signed n :: inner, by simp [apply]⟩
  | neutral => exact ⟨inner, by simp⟩
  | closer =>
      cases inner with
      | nil => simp [apply] at kept
      | cons c inner => exact ⟨inner, by simp [apply]⟩
  | divider =>
      cases inner with
      | nil => exact ⟨[], by simp [apply]⟩
      | cons c inner => exact ⟨signed n :: inner, by simp [apply]⟩

end Blocks

namespace LineState

variable (settings : Settings) {s : LineState} {line : Text}

theorem blocks_readLine_of_lead (tabSize : Nat) (lead : s.KeywordsLead tabSize line) :
    (s.readLine tabSize line).2.blocks =
      s.blocks.applyAll
        (keywords (line.columns tabSize) (s.visibleLexemes tabSize line).head?.toList) := by
  rw [blocks_readLine, ← keywords_visibleLexemes]
  cases first : s.visibleLexemes tabSize line with
  | nil => rfl
  | cons l rest =>
      have htail := lead.1
      rw [first, List.tail_cons] at htail
      rw [keywords_cons, Blocks.applyAll_append, applyAll_keywords_of_still _ _ htail,
        List.head?_cons, Option.toList_some, keywords_cons, Blocks.applyAll_append]
      rfl

theorem exists_role (l? : Option Lexeme) :
    ∃ role, (∀ (b : Blocks) n, b.applyAll (keywords n l?.toList) = b.apply role n) ∧
      ∀ r, r ≠ .neutral → (l?.map Lexeme.cls = some (.keyword r) ↔ r = role) := by
  cases l? with
  | none =>
      refine ⟨.neutral, fun b n => (Blocks.apply_neutral b n).symm, fun r hr => ?_⟩
      simp [hr]
  | some l =>
      cases hrole : l.cls.role? with
      | none =>
          refine ⟨.neutral, fun b n => ?_, fun r hr => ?_⟩
          · rw [Blocks.apply_neutral, Option.toList_some, keywords_cons, hrole]
            rfl
          · have hne : l.cls ≠ .keyword r := by
              intro hcls
              rw [hcls] at hrole
              cases hrole
            simp [hr, hne]
      | some role =>
          refine ⟨role, fun b n => ?_, fun r _ => ?_⟩
          · rw [Option.toList_some, keywords_cons, hrole]
            rfl
          · rw [Option.map_some, TokenClass.role?_eq_some_iff.mp hrole]
            simp [eq_comm]

/-- A line that a closer or a divider leads lines up with the innermost block, or stands one unit
deeper. -/
theorem columns_layoutLine_of_top {l : Lexeme} {rest : List Lexeme} {column : Nat}
    {outer : List Int} (base : s.mode = .base) (top : s.blocks.opened = (column : Int) :: outer)
    (small : settings.indentUnit < Bits64.quarter) (bounded : column < Bits64.quarter)
    (first : s.visibleLexemes settings.tabSize (s.layoutLine settings line) = l :: rest)
    (ends : l.cls = .keyword .divider ∨ l.cls = .keyword .closer) :
    (s.layoutLine settings line).columns settings.tabSize =
      column + if l.isInnerDivider then settings.indentUnit else 0 := by
  have visible := trimStart_ne_nil_of_visible settings base first
  have hlayout := layoutLine_of_visible settings base visible
  have hstart := Text.startsVisible_trimStart line
  have hcolumn : s.columnFor settings line.trimStart = _ :=
    Blocks.columnFor_of_top top small bounded line.trimStart
  rw [hlayout] at first ⊢
  obtain ⟨l', rest', hfirst, hword, hkeyword⟩ := exists_first_lexeme settings.tabSize base
    (isAllBlank_replicate (s.columnFor settings line.trimStart)) (Mode.sameSide_replicate _) hstart
    visible
  rw [first] at hfirst
  obtain ⟨rfl, -⟩ := List.cons.inj hfirst
  obtain ⟨role, hcls⟩ : ∃ role, l.cls = .keyword role := ends.elim (⟨_, ·⟩) (⟨_, ·⟩)
  have hreserved := hkeyword role hcls
  have hcloser := Word.closers_eq_not_inner hreserved (hcls ▸ ends)
  rw [← hword _ hreserved] at hcloser
  have hstarts : Blocks.startsWithCloser line.trimStart = !l.isInnerDivider := by
    unfold Blocks.startsWithCloser
    rw [Text.trimStart_eq_self hstart, hcloser]
  rw [Text.columns_replicate _ _ hstart, hcolumn, hstarts]
  cases l.isInnerDivider <;> rfl

end LineState

namespace Document

variable (settings : Settings) (source : Text)

/-! ### The lines of a block -/

/-- The first token to be seen on a line as it is laid out, the first line being zero. -/
def leader? (i : Nat) : Option Lexeme :=
  (layoutLines settings source)[i]?.bind fun line =>
    ((stateBefore settings source i).visibleLexemes settings.tabSize line).head?

/-- The column at which a line is laid out. -/
def startColumn? (i : Nat) : Option Nat :=
  (layoutLines settings source)[i]?.map (Text.columns settings.tabSize)

/-- The number of blocks that are open before a line. -/
def openBefore (i : Nat) : Nat := (stateBefore settings source i).blocks.opened.length

/-- A keyword of the given role leads the line. -/
def LedBy (role : KeywordRole) (i : Nat) : Prop :=
  (leader? settings source i).map Lexeme.cls = some (.keyword role)

instance (role : KeywordRole) (i : Nat) : Decidable (LedBy settings source role i) :=
  inferInstanceAs (Decidable (_ = _))

/-- `detect` or `always` leads the line. -/
def LedByInner (i : Nat) : Prop := (leader? settings source i).any Lexeme.isInnerDivider = true

instance (i : Nat) : Decidable (LedByInner settings source i) :=
  inferInstanceAs (Decidable (_ = _))

/-- Line `j` continues or closes the block that line `i` opened: that block is open before every line
behind `i` up to `j`, it is the innermost one before `j`, and a divider or a closer leads `j`. -/
def Continues (i j : Nat) : Prop :=
  i < j ∧ (∀ k ≤ j, i < k → openBefore settings source i < openBefore settings source k) ∧
    openBefore settings source j = openBefore settings source i + 1 ∧
    (LedBy settings source .divider j ∨ LedBy settings source .closer j)

instance (i j : Nat) : Decidable (Continues settings source i j) :=
  inferInstanceAs (Decidable (_ ∧ _))

/-- The number of lines before line `n` that continue the block that line `i` opened and that `detect`
or `always` leads. -/
def innerCount (i n : Nat) : Nat :=
  (List.range n).countP fun k =>
    decide (Continues settings source i k ∧ LedByInner settings source k)

theorem innerCount_succ (i k : Nat) :
    innerCount settings source i (k + 1) = innerCount settings source i k +
      if Continues settings source i k ∧ LedByInner settings source k then 1 else 0 := by
  simp [innerCount, List.range_succ, List.countP_append, List.countP_singleton]

variable {settings source} {i j k n : Nat}

theorem innerCount_eq_zero
    (none : ∀ k < n, Continues settings source i k → ¬ LedByInner settings source k) :
    innerCount settings source i n = 0 := by
  unfold innerCount
  rw [List.countP_eq_zero]
  intro k hk
  rw [decide_eq_true_iff]
  exact fun h => none k (List.mem_range.mp hk) h.1 h.2

theorem innerCount_opening : innerCount settings source i (i + 1) = 0 := by
  refine innerCount_eq_zero fun k hk continues => ?_
  have hlater := continues.1
  omega

theorem mul_innerCount_succ (continues : Continues settings source i k) (unit : Nat) :
    unit * innerCount settings source i (k + 1) = unit * innerCount settings source i k +
      if LedByInner settings source k then unit else 0 := by
  rw [innerCount_succ, Nat.mul_add]
  by_cases hinner : LedByInner settings source k
  · rw [if_pos ⟨continues, hinner⟩, if_pos hinner, Nat.mul_one]
  · rw [if_neg fun h => hinner h.2, if_neg hinner, Nat.mul_zero]

/-! ### One line of the layout -/

theorem exists_of_leader? {l : Lexeme} (h : leader? settings source i = some l) :
    ∃ (hi : i < source.lines.length) (rest : List Lexeme),
      (layoutLines settings source)[i]? =
          some ((stateBefore settings source i).layoutLine settings source.lines[i]) ∧
        (stateBefore settings source i).visibleLexemes settings.tabSize
          ((stateBefore settings source i).layoutLine settings source.lines[i]) = l :: rest := by
  unfold leader? at h
  obtain ⟨laidOut, hlaidOut, hfirst⟩ := Option.bind_eq_some_iff.mp h
  obtain ⟨hlt, hget⟩ := List.getElem?_eq_some_iff.mp hlaidOut
  have hi : i < source.lines.length := by rwa [← length_layoutLines settings source]
  rw [getElem_layoutLines hlt (List.getElem?_eq_getElem hi)] at hget
  obtain ⟨rest, hrest⟩ := List.head?_eq_some_iff.mp hfirst
  exact ⟨hi, rest, by rw [hlaidOut, hget], by rw [hget, hrest]⟩

theorem exists_of_ledBy {role : KeywordRole} (h : LedBy settings source role i) :
    ∃ l, leader? settings source i = some l ∧ l.cls = .keyword role :=
  Option.map_eq_some_iff.mp h

theorem lt_of_ledBy {role : KeywordRole} (h : LedBy settings source role i) :
    i < source.lines.length := by
  obtain ⟨l, hl, -⟩ := exists_of_ledBy h
  exact (exists_of_leader? hl).1

theorem LedByInner.ledBy (h : LedByInner settings source i) :
    LedBy settings source .divider i := by
  unfold LedByInner at h
  unfold LedBy
  cases hl : leader? settings source i with
  | none =>
      rw [hl] at h
      cases h
  | some l =>
      rw [hl, Option.any_some, Lexeme.isInnerDivider, Bool.and_eq_true, beq_iff_eq] at h
      rw [Option.map_some, h.1]

section run

variable (small : settings.indentUnit < Bits64.quarter)
  (bounded : ∀ line ∈ layoutLines settings source, line.columns settings.tabSize < Bits64.quarter)
  (lead : ∀ i (h : i < (layoutLines settings source).length),
    (stateBefore settings source i).KeywordsLead settings.tabSize (layoutLines settings source)[i])

include bounded in
theorem startColumn_lt {column : Nat} (h : startColumn? settings source i = some column) :
    column < Bits64.quarter := by
  obtain ⟨line, hline, rfl⟩ := Option.map_eq_some_iff.mp h
  exact bounded line (List.mem_of_getElem? hline)

include lead in
/-- What a line does to the blocks: the keyword that leads it is applied, if there is one. -/
theorem exists_apply (hi : i < source.lines.length) :
    ∃ role column, startColumn? settings source i = some column ∧
      (stateBefore settings source (i + 1)).blocks =
        (stateBefore settings source i).blocks.apply role column ∧
      ∀ r, r ≠ .neutral → (LedBy settings source r i ↔ r = role) := by
  have hlt : i < (layoutLines settings source).length := by rwa [length_layoutLines]
  have hget := getElem_layoutLines hlt (List.getElem?_eq_getElem hi)
  have hstep := LineState.blocks_readLine_of_lead settings.tabSize (lead i hlt)
  have hleader : leader? settings source i =
      ((stateBefore settings source i).visibleLexemes settings.tabSize
        (layoutLines settings source)[i]).head? := by
    unfold leader?
    rw [List.getElem?_eq_getElem hlt, Option.bind_some]
  rw [← hleader, hget, ← stateBefore_succ hi] at hstep
  rw [hstep]
  unfold startColumn? LedBy
  rw [List.getElem?_eq_getElem hlt, hget, Option.map_some]
  obtain ⟨role, happly, hrole⟩ := LineState.exists_role (leader? settings source i)
  exact ⟨role, _, rfl, happly _ _, hrole⟩

include small lead in
theorem startColumn_of_top {column : Nat} {outer : List Int}
    (top : (stateBefore settings source i).blocks.opened = (column : Int) :: outer)
    (hcolumn : column < Bits64.quarter)
    (ends : LedBy settings source .divider i ∨ LedBy settings source .closer i) :
    startColumn? settings source i =
      some (column + if LedByInner settings source i then settings.indentUnit else 0) := by
  obtain ⟨l, hl, hcls⟩ : ∃ l, leader? settings source i = some l ∧
      (l.cls = .keyword .divider ∨ l.cls = .keyword .closer) := by
    rcases ends with h | h
    · exact (exists_of_ledBy h).imp fun l => And.imp_right Or.inl
    · exact (exists_of_ledBy h).imp fun l => And.imp_right Or.inr
  obtain ⟨hi, rest, hline, hfirst⟩ := exists_of_leader? hl
  have hlt : i < (layoutLines settings source).length := by rwa [length_layoutLines]
  have hlead := (lead i hlt).2
  rw [getElem_layoutLines hlt (List.getElem?_eq_getElem hi), hfirst] at hlead
  have base : (stateBefore settings source i).mode = .base := by
    refine hlead l rfl ?_
    rcases hcls with h | h <;> simp [Lexeme.movesBlocks, TokenClass.role?, h]
  have hinner : LedByInner settings source i ↔ l.isInnerDivider = true := by
    unfold LedByInner
    rw [hl, Option.any_some]
  unfold startColumn?
  rw [hline, Option.map_some,
    LineState.columns_layoutLine_of_top settings base top small hcolumn hfirst hcls]
  simp only [hinner]

/-! ### From the opening line on -/

include small bounded lead in
/-- While a block is open, its column is that of the opening line, one unit deeper for each `detect`
or `always` that continued the block. -/
theorem column_above {column : Nat} (opens : LedBy settings source .opener i)
    (start : startColumn? settings source i = some column) (later : i + 1 ≤ k)
    (inside : k ≤ source.lines.length)
    (kept : ∀ m ≤ k, i < m → openBefore settings source i < openBefore settings source m) :
    column + settings.indentUnit * innerCount settings source i k < Bits64.quarter ∧
      ∃ inner, (stateBefore settings source k).blocks.opened = inner ++
        ((column + settings.indentUnit * innerCount settings source i k : Nat) : Int) ::
          (stateBefore settings source i).blocks.opened := by
  induction k, later using Nat.le_induction with
  | base =>
      obtain ⟨role, n, hn, hstep, hrole⟩ := exists_apply lead (lt_of_ledBy opens)
      obtain rfl := (hrole .opener (by decide)).mp opens
      obtain rfl := Option.some.inj (start.symm.trans hn)
      have hsmall := startColumn_lt bounded start
      rw [innerCount_opening, Nat.mul_zero, Nat.add_zero, hstep]
      refine ⟨hsmall, [], ?_⟩
      simp [Blocks.apply, Blocks.signed_of_small hsmall]
  | succ k hk ih =>
      have kept' : ∀ m ≤ k, i < m → openBefore settings source i < openBefore settings source m :=
        fun m hm => kept m (by omega)
      obtain ⟨hsmall, inner, hopened⟩ := ih (by omega) kept'
      obtain ⟨role, n, hn, hstep, hrole⟩ := exists_apply lead (show k < source.lines.length from inside)
      have hkept := kept (k + 1) (Nat.le_refl _) (by omega)
      unfold openBefore at hkept
      rw [hstep] at hkept
      obtain ⟨inner', hopened'⟩ := Blocks.opened_apply_above hopened role n hkept
      rw [← hstep] at hopened'
      by_cases hdivides : inner = [] ∧ role = .divider
      · -- the line continues the block and gives it its own column
        obtain ⟨rfl, rfl⟩ := hdivides
        have hled : LedBy settings source .divider k := (hrole .divider (by decide)).mpr rfl
        have hcontinues : Continues settings source i k :=
          ⟨hk, kept', by unfold openBefore; rw [hopened]; rfl, Or.inl hled⟩
        have hstart := startColumn_of_top small lead hopened hsmall (Or.inl hled)
        rw [Nat.add_assoc, ← mul_innerCount_succ hcontinues] at hstart
        obtain rfl := Option.some.inj (hn.symm.trans hstart)
        have hn' := startColumn_lt bounded hn
        rw [if_pos ⟨rfl, rfl⟩, Blocks.signed_of_small hn'] at hopened'
        exact ⟨hn', inner', hopened'⟩
      · have hcount : innerCount settings source i (k + 1) = innerCount settings source i k := by
          rw [innerCount_succ, if_neg, Nat.add_zero]
          rintro ⟨⟨-, -, htop, -⟩, hinner⟩
          refine hdivides ⟨?_, ((hrole .divider (by decide)).mp hinner.ledBy).symm⟩
          unfold openBefore at htop
          rw [hopened, List.length_append, List.length_cons] at htop
          exact List.length_eq_zero_iff.mp (by omega)
        rw [if_neg hdivides] at hopened'
        rw [hcount]
        exact ⟨hsmall, inner', hopened'⟩

include small bounded lead in
/-- A line of a block stands one unit deeper than the opening line for each `detect` or `always` of
the block up to it. -/
theorem column_of_continues {column : Nat} (opens : LedBy settings source .opener i)
    (start : startColumn? settings source i = some column)
    (continues : Continues settings source i j) :
    startColumn? settings source j =
      some (column + settings.indentUnit * innerCount settings source i (j + 1)) := by
  obtain ⟨hlater, hkept, hdepth, hends⟩ := continues
  have hinside : j < source.lines.length := by
    rcases hends with h | h
    · exact lt_of_ledBy h
    · exact lt_of_ledBy h
  obtain ⟨hsmall, inner, hopened⟩ :=
    column_above small bounded lead opens start hlater (Nat.le_of_lt hinside) hkept
  have hinner : inner = [] := by
    unfold openBefore at hdepth
    rw [hopened, List.length_append, List.length_cons] at hdepth
    exact List.length_eq_zero_iff.mp (by omega)
  rw [hinner, List.nil_append] at hopened
  rw [startColumn_of_top small lead hopened hsmall hends, Nat.add_assoc,
    ← mul_innerCount_succ ⟨hlater, hkept, hdepth, hends⟩]

end run

/-- **The lines of a block.**  If the keywords that move blocks lead lines of ordinary code, every line
that continues or closes a block is laid out at the column of the line that opened it, one unit deeper
for each line of the block up to it that `detect` or `always` leads.  In particular the lines line up
if there is no such line. -/
theorem block_lines_column (settings : Settings) (source : Text)
    (small : settings.indentUnit < Bits64.quarter)
    (bounded : ∀ line ∈ layoutLines settings source, line.columns settings.tabSize < Bits64.quarter)
    (lead : ∀ i (h : i < (layoutLines settings source).length),
      (stateBefore settings source i).KeywordsLead settings.tabSize
        (layoutLines settings source)[i])
    {i j : Nat} (opens : LedBy settings source .opener i)
    (continues : Continues settings source i j) :
    ∃ column, startColumn? settings source i = some column ∧
      startColumn? settings source j =
        some (column + settings.indentUnit * innerCount settings source i (j + 1)) ∧
      ((∀ k ≤ j, Continues settings source i k → ¬ LedByInner settings source k) →
        startColumn? settings source j = some column) := by
  obtain ⟨column, start⟩ : ∃ column, startColumn? settings source i = some column := by
    obtain ⟨l, hl, -⟩ := exists_of_ledBy opens
    obtain ⟨hi, rest, hline, -⟩ := exists_of_leader? hl
    exact ⟨_, Option.map_eq_some_iff.mpr ⟨_, hline, rfl⟩⟩
  have hcolumn := column_of_continues small bounded lead opens start continues
  refine ⟨column, start, hcolumn, fun none => ?_⟩
  have hcount := innerCount_eq_zero fun k hk => none k (Nat.le_of_lt_succ hk)
  rw [hcolumn, hcount, Nat.mul_zero, Nat.add_zero]

/-- An `always` behind a `detect` and an inner block: the `end` stands two units deeper than the
`check`. -/
theorem block_lines_column_of_always :
    let source : Text := "class A
check
detect e
if b
else
end
always
end".toList
    startColumn? {} source 1 = some 4 ∧ startColumn? {} source 7 = some (4 + 4 * 2) := by
  intro source
  obtain ⟨column, hopening, hend, -⟩ := block_lines_column {} source (by decide)
    (by decide +kernel) (by decide +kernel) (i := 1) (j := 7) (by decide +kernel) (by decide +kernel)
  have hfirst : startColumn? {} source 1 = some 4 := by decide +kernel
  have hcount : innerCount {} source 1 8 = 2 := by decide +kernel
  obtain rfl := Option.some.inj (hopening.symm.trans hfirst)
  rw [hcount] at hend
  exact ⟨hfirst, hend⟩

/-- A `detect` does not line up with the `check` that it continues. -/
theorem detect_not_lined_up :
    let source : Text := "check
detect e
end".toList
    (∀ line ∈ layoutLines {} source, line.columns 4 < Bits64.quarter) ∧
      (∀ i (h : i < (layoutLines {} source).length),
        (stateBefore {} source i).KeywordsLead 4 (layoutLines {} source)[i]) ∧
      LedBy {} source .opener 0 ∧ Continues {} source 0 1 ∧ Continues {} source 0 2 ∧
      startColumn? {} source 0 = some 0 ∧ startColumn? {} source 1 = some 4 ∧
      startColumn? {} source 2 = some 4 := by
  decide +kernel

end Document

end BlockLayout
