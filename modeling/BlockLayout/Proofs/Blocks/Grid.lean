import BlockLayout.Blocks.Basic

/-! # Blocks on a grid

The open blocks are on the grid of a unit if each stands one unit deeper than the one around it, the
outermost at the margin and the document one unit left of it (`Blocks.OnGrid`).  Then a line belongs
at as many units as blocks are open, or one less if a closing word leads it (`OnGrid.columnFor`), and
a keyword keeps the blocks on the grid if the line that it opens a block on stands where it belongs
(`OnGrid.apply`).

The grid ends below a quarter of the range of 64 bits, which leaves room for one more unit. -/

namespace BlockLayout.Blocks

open Bits64

/-- The columns, the innermost first, are successive multiples of the unit. -/
def Stairs (unit : Nat) : List Int → Prop
  | [] => True
  | column :: outer =>
    column = (unit * outer.length : Nat) ∧ unit * outer.length < quarter ∧ Stairs unit outer

/-- The blocks stand one unit apart, from the margin on. -/
structure OnGrid (unit : Nat) (b : Blocks) : Prop where
  root : b.root = -(unit : Int)
  opened : Stairs unit b.opened

variable {unit : Nat} {b : Blocks}

theorem signed_of_small {n : Nat} (small : n < quarter) : signed n = n := by
  have hhalf : half = 2 * quarter := by decide
  exact signed_of_lt (by omega)

theorem onGrid_start (small : unit < quarter) : OnGrid unit (start unit) := by
  refine ⟨?_, trivial⟩
  have hhalf : half = 2 * quarter := by decide
  unfold start
  rw [signed_of_small small]
  exact signed_of_bounds (by omega) (by omega)

theorem columnFor_of_root (root : b.root = -(unit : Int)) (empty : b.opened = [])
    (small : unit < quarter) (content : Text) : b.columnFor unit content = 0 := by
  have hzero : signed (-(unit : Int) + unit) = 0 := by
    rw [Int.add_left_neg]
    decide
  unfold columnFor isRoot top
  rw [empty, signed_of_small small, root]
  simp only [List.isEmpty_nil, Bool.not_true, Bool.false_and, List.head?_nil, Option.getD_none]
  rw [if_neg (by decide), hzero]
  rfl

theorem columnFor_of_top {column : Nat} {outer : List Int}
    (top : b.opened = (column : Int) :: outer) (small : unit < quarter) (bounded : column < quarter)
    (content : Text) :
    b.columnFor unit content = column + if startsWithCloser content then 0 else unit := by
  have hhalf : half = 2 * quarter := by decide
  unfold columnFor isRoot Blocks.top
  rw [top, signed_of_small small]
  simp only [List.isEmpty_cons, Bool.not_false, Bool.true_and, List.head?_cons, Option.getD_some]
  split
  · simp
  · rw [signed_of_bounds (by omega) (by omega)]
    omega

/-- The column at which a line belongs, in units. -/
theorem OnGrid.columnFor (h : OnGrid unit b) (small : unit < quarter) (content : Text) :
    b.columnFor unit content =
      unit * (b.opened.length - if startsWithCloser content then 1 else 0) := by
  have hopened := h.opened
  cases hlist : b.opened with
  | nil => rw [columnFor_of_root h.root hlist small, List.length_nil, Nat.zero_sub, Nat.mul_zero]
  | cons column outer =>
      rw [hlist] at hopened
      obtain ⟨rfl, hbound, -⟩ := hopened
      rw [columnFor_of_top hlist small hbound, List.length_cons]
      split
      · rw [Nat.add_zero, Nat.add_sub_cancel]
      · rw [Nat.sub_zero, Nat.mul_succ]

/-- A keyword keeps the blocks on the grid if an opener stands where the next block begins and a
divider where the innermost block does. -/
theorem OnGrid.apply (h : OnGrid unit b) {role : KeywordRole} {column : Nat}
    (small : column < quarter) (opener : role = .opener → column = unit * b.opened.length)
    (divider : role = .divider → column = unit * (b.opened.length - 1)) :
    OnGrid unit (b.apply role column) := by
  refine ⟨by rw [root_apply]; exact h.root, ?_⟩
  obtain ⟨root, opened⟩ := b
  have hopened := h.opened
  cases role with
  | opener =>
      have hcolumn := opener rfl
      rw [hcolumn] at small
      refine ⟨?_, small, hopened⟩
      rw [hcolumn]
      exact signed_of_small small
  | closer =>
      cases opened with
      | nil => trivial
      | cons top outer => exact hopened.2.2
  | divider =>
      cases opened with
      | nil => trivial
      | cons top outer =>
          have hcolumn := divider rfl
          simp only [List.length_cons, Nat.add_sub_cancel] at hcolumn
          rw [hcolumn] at small
          refine ⟨?_, small, hopened.2.2⟩
          rw [hcolumn]
          exact signed_of_small small
  | neutral =>
      rw [apply_neutral]
      exact hopened

/-! ## Blocks in ascending columns

The open blocks ascend in a unit if their columns are multiples of the unit and none lies left of one
further out (`Blocks.Ascends`).  This is weaker than to be on a grid: blocks may share a column or
leave columns out.  A line then belongs at a multiple of the unit, and left of no open block
(`Ascends.columnFor`).  Keywords keep the blocks ascending if all of them stand at one such column
(`Ascends.applyAll`), and closers do so wherever they stand (`Ascends.applyAll_of_closing`). -/

/-- The columns of the open blocks are multiples of the unit, and none is left of one further out. -/
structure Ascends (unit : Nat) (b : Blocks) : Prop where
  root : b.root = -(unit : Int)
  multiples : ∀ c ∈ b.opened, ∃ n : Nat, c = (unit * n : Nat) ∧ unit * n < quarter
  ordered : b.opened.Pairwise (· ≥ ·)

/-- No open block lies right of the column. -/
def UpTo (b : Blocks) (column : Int) : Prop := ∀ c ∈ b.opened, c ≤ column

theorem ascends_start (small : unit < quarter) : Ascends unit (start unit) :=
  ⟨(onGrid_start small).root, fun _ hc => absurd hc List.not_mem_nil, .nil⟩

theorem Ascends.upTo_top (h : Ascends unit b) {column : Int} {outer : List Int}
    (top : b.opened = column :: outer) : b.UpTo column := by
  have hordered := h.ordered
  unfold UpTo
  rw [top] at hordered ⊢
  intro c hc
  rcases List.mem_cons.mp hc with rfl | hc
  · exact Int.le_refl c
  · exact List.rel_of_pairwise_cons hordered hc

/-- The column at which a line belongs is a multiple of the unit, and left of no open block. -/
theorem Ascends.columnFor (h : Ascends unit b) (small : unit < quarter) (content : Text) :
    ∃ n, b.columnFor unit content = unit * n ∧ b.UpTo (unit * n : Nat) := by
  cases hlist : b.opened with
  | nil =>
      refine ⟨0, columnFor_of_root h.root hlist small content, fun c hc => ?_⟩
      rw [hlist] at hc
      cases hc
  | cons column outer =>
      obtain ⟨n, rfl, hbound⟩ := h.multiples column (by rw [hlist]; exact List.mem_cons_self)
      have hupTo := h.upTo_top hlist
      rw [columnFor_of_top hlist small hbound]
      split
      · exact ⟨n, rfl, hupTo⟩
      · refine ⟨n + 1, (Nat.mul_succ unit n).symm, fun c hc => Int.le_trans (hupTo c hc) ?_⟩
        exact Int.ofNat_le.mpr (Nat.mul_le_mul_left unit (Nat.le_succ n))

/-! ### Keywords -/

theorem Ascends.of_sublist (h : Ascends unit b) {opened : List Int}
    (fewer : opened.Sublist b.opened) : Ascends unit ⟨b.root, opened⟩ :=
  ⟨h.root, fun c hc => h.multiples c (fewer.mem hc), h.ordered.sublist fewer⟩

theorem Ascends.push (h : Ascends unit b) {n : Nat} (bounded : unit * n < quarter)
    (right : b.UpTo (unit * n : Nat)) :
    Ascends unit ⟨b.root, signed (unit * n : Nat) :: b.opened⟩ ∧
      UpTo ⟨b.root, signed (unit * n : Nat) :: b.opened⟩ (unit * n : Nat) := by
  rw [signed_of_small bounded]
  refine ⟨⟨h.root, fun c hc => ?_, List.pairwise_cons.mpr ⟨right, h.ordered⟩⟩, fun c hc => ?_⟩
  · rcases List.mem_cons.mp hc with rfl | hc
    · exact ⟨n, rfl, bounded⟩
    · exact h.multiples c hc
  · rcases List.mem_cons.mp hc with rfl | hc
    · exact Int.le_refl _
    · exact right c hc

theorem Ascends.apply (h : Ascends unit b) {n : Nat} (bounded : unit * n < quarter)
    (right : b.UpTo (unit * n : Nat)) (role : KeywordRole) :
    Ascends unit (b.apply role (unit * n)) ∧ (b.apply role (unit * n)).UpTo (unit * n : Nat) := by
  obtain ⟨root, opened⟩ := b
  cases role with
  | opener => exact h.push bounded right
  | neutral =>
      rw [apply_neutral]
      exact ⟨h, right⟩
  | closer =>
      cases opened with
      | nil => exact ⟨h, right⟩
      | cons top outer =>
          exact ⟨h.of_sublist (List.sublist_cons_self top outer),
            fun c hc => right c (List.mem_cons_of_mem top hc)⟩
  | divider =>
      cases opened with
      | nil => exact ⟨h, right⟩
      | cons top outer =>
          exact (h.of_sublist (List.sublist_cons_self top outer)).push bounded
            fun c hc => right c (List.mem_cons_of_mem top hc)

/-- Keywords that all stand at one multiple of the unit, left of no open block. -/
theorem Ascends.applyAll (h : Ascends unit b) {n : Nat} (bounded : unit * n < quarter)
    (right : b.UpTo (unit * n : Nat)) {keywords : List (KeywordRole × Nat)}
    (level : ∀ k ∈ keywords, k.2 = unit * n) : Ascends unit (b.applyAll keywords) := by
  induction keywords generalizing b with
  | nil => exact h
  | cons k ks ih =>
      obtain ⟨happly, hright⟩ := h.apply bounded right k.1
      rw [applyAll_cons, level k List.mem_cons_self]
      exact ih happly hright fun l hl => level l (List.mem_cons_of_mem k hl)

/-- Keywords that open and divide no block, wherever they stand. -/
theorem Ascends.applyAll_of_closing (h : Ascends unit b) {keywords : List (KeywordRole × Nat)}
    (closing : ∀ k ∈ keywords, k.1 ≠ .opener ∧ k.1 ≠ .divider) :
    Ascends unit (b.applyAll keywords) := by
  induction keywords generalizing b with
  | nil => exact h
  | cons k ks ih =>
      rw [applyAll_cons]
      refine ih ?_ fun l hl => closing l (List.mem_cons_of_mem k hl)
      obtain ⟨role, column⟩ := k
      obtain ⟨hopener, hdivider⟩ := closing _ List.mem_cons_self
      obtain ⟨root, opened⟩ := b
      cases role with
      | opener => exact absurd rfl hopener
      | divider => exact absurd rfl hdivider
      | neutral =>
          rw [apply_neutral]
          exact h
      | closer =>
          cases opened with
          | nil => exact h
          | cons top outer => exact h.of_sublist (List.sublist_cons_self top outer)

end BlockLayout.Blocks
