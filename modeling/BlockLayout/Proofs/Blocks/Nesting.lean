import BlockLayout.Blocks.Basic
import Mathlib.Data.Finset.Lattice.Fold
import Mathlib.Data.Int.Order.Basic

/-! # Numbers and nesting of blocks

A keyword raises the number of open blocks by its `rise`, but never below zero (`length_apply`): a
closer without a block to close is absorbed.  Over many keywords the number is therefore a walk that
is held back at zero.  It ends where the walk would have ended (`add_balance_le`), or higher, by what
was absorbed; then it ends as far above zero as the keywords since the last absorption lead
(`length_applyAll_cases`).  `balance` counts openers less closers.

Main statements: `length_opened_eq_max`, `nested_restores_blocks`. -/

namespace BlockLayout

/-- By how much a keyword raises the number of open blocks, if there is a block to close. -/
def KeywordRole.rise : KeywordRole → Int
  | opener => 1
  | closer => -1
  | divider => 0
  | neutral => 0

namespace Blocks

/-- The number of openers less the number of closers. -/
def balance (ks : List (KeywordRole × Nat)) : Int :=
  ks.countP (fun k => k.1 = .opener) - ks.countP (fun k => k.1 = .closer)

theorem balance_nil : balance [] = 0 := rfl

theorem balance_cons (k : KeywordRole × Nat) (ks : List (KeywordRole × Nat)) :
    balance (k :: ks) = k.1.rise + balance ks := by
  obtain ⟨role, n⟩ := k
  unfold balance
  rw [List.countP_cons, List.countP_cons]
  cases role <;> simp [KeywordRole.rise] <;> omega

theorem balance_append (ks ls : List (KeywordRole × Nat)) :
    balance (ks ++ ls) = balance ks + balance ls := by
  unfold balance
  rw [List.countP_append, List.countP_append]
  omega

variable (b : Blocks) (ks : List (KeywordRole × Nat))

/-- One keyword: the number of open blocks rises, but not below zero. -/
theorem length_apply (role : KeywordRole) (n : Nat) :
    ((b.apply role n).opened.length : Int) = max (b.opened.length + role.rise) 0 := by
  obtain ⟨root, opened⟩ := b
  cases role <;> cases opened <;> simp [apply, KeywordRole.rise] <;> omega

theorem add_balance_le : b.opened.length + balance ks ≤ (b.applyAll ks).opened.length := by
  induction ks generalizing b with
  | nil => simp [balance_nil]
  | cons k ks ih =>
      have hstep := length_apply b k.1 k.2
      have hrest := ih (b.apply k.1 k.2)
      rw [balance_cons, applyAll_cons]
      omega

theorem balance_sub_le (k : Nat) :
    balance ks - balance (ks.take k) ≤ (b.applyAll ks).opened.length := by
  have hsplit := balance_append (ks.take k) (ks.drop k)
  have hafter := add_balance_le (b.applyAll (ks.take k)) (ks.drop k)
  rw [← applyAll_append, List.take_append_drop] at hafter
  rw [List.take_append_drop] at hsplit
  omega

/-- No closer was absorbed, or the open blocks are those that the keywords after the last absorbed
closer lead to. -/
theorem length_applyAll_cases :
    ((b.applyAll ks).opened.length : Int) = b.opened.length + balance ks ∨
      ∃ k ≤ ks.length,
        ((b.applyAll ks).opened.length : Int) = balance ks - balance (ks.take k) := by
  induction ks generalizing b with
  | nil => exact Or.inl (by simp [balance_nil])
  | cons x ks ih =>
      have hstep := length_apply b x.1 x.2
      rw [applyAll_cons, balance_cons]
      rcases ih (b.apply x.1 x.2) with hwalk | ⟨k, hk, habsorbed⟩
      · by_cases hzero : 0 ≤ (b.opened.length : Int) + x.1.rise
        · exact Or.inl (by omega)
        · refine Or.inr ⟨1, by simp, ?_⟩
          rw [List.take_succ_cons, List.take_zero, balance_cons, balance_nil]
          omega
      · refine Or.inr ⟨k + 1, by simpa using hk, ?_⟩
        rw [List.take_succ_cons, balance_cons]
        omega

/-- The number of open blocks is the higher of the end of the walk and its rise since any point. -/
theorem length_applyAll :
    ((b.applyAll ks).opened.length : Int) =
      max (b.opened.length + balance ks)
        ((Finset.range (ks.length + 1)).sup' Finset.nonempty_range_add_one
          fun k => balance ks - balance (ks.take k)) := by
  apply le_antisymm
  · rcases length_applyAll_cases b ks with hwalk | ⟨k, hk, habsorbed⟩
    · exact le_max_of_le_left hwalk.le
    · refine le_max_of_le_right (habsorbed.le.trans ?_)
      exact Finset.le_sup' (fun k => balance ks - balance (ks.take k))
        (Finset.mem_range.mpr (Nat.lt_succ_of_le hk))
  · refine max_le (add_balance_le b ks) (Finset.sup'_le _ _ fun k _ => ?_)
    exact balance_sub_le b ks k

theorem height_applyAll_leave_out (front back : List (KeywordRole × Nat)) {role : KeywordRole}
    (level : role.rise = 0) (n : Nat) :
    (b.applyAll (front ++ (role, n) :: back)).height = (b.applyAll (front ++ back)).height := by
  have hsame : (((b.applyAll front).apply role n).opened.length : Int) =
      (b.applyAll front).opened.length := by
    rw [length_apply, level]
    omega
  have hwith := length_applyAll ((b.applyAll front).apply role n) back
  have hwithout := length_applyAll (b.applyAll front) back
  rw [hsame, ← hwithout, Int.natCast_inj] at hwith
  unfold height
  rw [applyAll_append, applyAll_cons, applyAll_append, hwith]

/-- **Excess closers are absorbed.**  The number of open blocks after any keywords is the higher of
two: what there were with the openers less the closers added, and the most that the openers less the
closers come to from any point up to the end.  Dividers and neutral keywords can be left out wherever
they stand; the height is at least one; and the column of the document stays, which is minus the
indent unit at the start. -/
theorem length_opened_eq_max :
    ((b.applyAll ks).opened.length : Int) =
        max (b.opened.length + balance ks)
          ((Finset.range (ks.length + 1)).sup' Finset.nonempty_range_add_one
            fun k => balance ks - balance (ks.take k)) ∧
      (∀ front n back, (b.applyAll (front ++ (.divider, n) :: back)).height =
        (b.applyAll (front ++ back)).height) ∧
      (∀ front n back, (b.applyAll (front ++ (.neutral, n) :: back)).height =
        (b.applyAll (front ++ back)).height) ∧
      1 ≤ (b.applyAll ks).height ∧ (b.applyAll ks).root = b.root ∧
      ∀ unit : Nat, ((start unit).applyAll ks).root = Bits64.signed (-unit) := by
  refine ⟨length_applyAll b ks, ?_, ?_, Nat.le_add_left 1 _, root_applyAll b ks, ?_⟩
  · exact fun front n back => height_applyAll_leave_out b front back rfl n
  · exact fun front n back => height_applyAll_leave_out b front back rfl n
  · intro unit
    unfold start
    rw [root_applyAll, Bits64.signed_neg_signed]

end Blocks

/-! ## Nested keywords

Keywords are nested (`Nested`) if every closer ends the block that an opener began and every divider
stands directly inside of such a block, between two parts of it (`Parts`).

What such keywords do to the open blocks is proved along the grammar, for both kinds of sequences at
once.  A nested sequence brings every block back.  The parts of one block bring back everything but
the column of that block, which the last divider has set anew.  `Throughout` carries along what holds
of the blocks at every point on the way. -/

mutual

/-- Keywords of whole blocks, one after the other. -/
inductive Nested : List (KeywordRole × Nat) → Prop
  | nil : Nested []
  | append {ks ls : List (KeywordRole × Nat)} (front : Nested ks) (back : Nested ls) :
      Nested (ks ++ ls)
  | neutral (n : Nat) : Nested [(.neutral, n)]
  | block {ks : List (KeywordRole × Nat)} (m n : Nat) (body : Parts ks) :
      Nested ((.opener, m) :: (ks ++ [(.closer, n)]))

/-- Keywords of the parts of one block, with a divider between two parts. -/
inductive Parts : List (KeywordRole × Nat) → Prop
  | single {ks : List (KeywordRole × Nat)} (part : Nested ks) : Parts ks
  | divider {ks ls : List (KeywordRole × Nat)} (n : Nat) (front : Parts ks) (part : Nested ls) :
      Parts (ks ++ (.divider, n) :: ls)

end

namespace Blocks

variable {p q : Blocks → Prop} {b : Blocks} {ks ls : List (KeywordRole × Nat)}

/-! ### Along the way -/

/-- The property holds of the blocks before, between and after the keywords. -/
def Throughout (p : Blocks → Prop) (b : Blocks) : List (KeywordRole × Nat) → Prop
  | [] => p b
  | (role, n) :: ks => p b ∧ Throughout p (b.apply role n) ks

theorem Throughout.here (h : Throughout p b ks) : p b := by
  cases ks with
  | nil => exact h
  | cons k ks => exact h.1

theorem Throughout.mono (h : Throughout p b ks) (imp : ∀ c, p c → q c) : Throughout q b ks := by
  induction ks generalizing b with
  | nil => exact imp b h
  | cons k ks ih => exact ⟨imp b h.1, ih h.2⟩

theorem throughout_append :
    Throughout p b (ks ++ ls) ↔ Throughout p b ks ∧ Throughout p (b.applyAll ks) ls := by
  induction ks generalizing b with
  | nil => exact ⟨fun h => ⟨h.here, h⟩, And.right⟩
  | cons k ks ih =>
      constructor
      · rintro ⟨hb, h⟩
        obtain ⟨hks, hls⟩ := ih.mp h
        exact ⟨⟨hb, hks⟩, hls⟩
      · rintro ⟨⟨hb, hks⟩, hls⟩
        exact ⟨hb, ih.mpr ⟨hks, hls⟩⟩

theorem Throughout.of_front (h : Throughout p b ks) {front : List (KeywordRole × Nat)}
    (first : front <+: ks) : p (b.applyAll front) := by
  obtain ⟨back, rfl⟩ := first
  exact (throughout_append.mp h).2.here

/-! ### One more block -/

/-- The blocks with one of the given column open inside of them. -/
def push (b : Blocks) (column : Int) : Blocks := { b with opened := column :: b.opened }

theorem apply_opener (b : Blocks) (n : Nat) : b.apply .opener n = b.push (Bits64.signed n) := rfl

theorem apply_closer_push (b : Blocks) (column : Int) (n : Nat) :
    (b.push column).apply .closer n = b := rfl

theorem apply_divider_push (b : Blocks) (column : Int) (n : Nat) :
    (b.push column).apply .divider n = b.push (Bits64.signed n) := rfl

theorem columns_push (b : Blocks) (column : Int) :
    (b.push column).columns = b.columns ++ [column] := by
  unfold columns push
  rw [List.reverse_cons, List.cons_append]

theorem columns_prefix_push (b : Blocks) (column : Int) : b.columns <+: (b.push column).columns := by
  rw [columns_push]
  exact List.prefix_append _ _

/-! ### Along the grammar -/

/-- The columns of the first blocks all stand in their places in the second. -/
def Keeps (b c : Blocks) : Prop := b.columns <+: c.columns

theorem Keeps.of_push {column : Int} {c : Blocks} (h : (b.push column).Keeps c) : b.Keeps c :=
  (columns_prefix_push b column).trans h

mutual

/-- Nested keywords bring back the blocks and keep them on the way. -/
theorem applyAll_nested : ∀ {ks : List (KeywordRole × Nat)}, Nested ks → ∀ b : Blocks,
    b.applyAll ks = b ∧ Throughout b.Keeps b ks
  | _, .nil, _ => ⟨rfl, List.prefix_rfl⟩
  | _, .append front back, b => by
      obtain ⟨hfront, onFront⟩ := applyAll_nested front b
      obtain ⟨hback, onBack⟩ := applyAll_nested back b
      rw [applyAll_append, hfront, throughout_append, hfront]
      exact ⟨hback, onFront, onBack⟩
  | _, .neutral n, b => by
      have hsame : b.apply .neutral n = b := apply_neutral b n
      refine ⟨hsame, List.prefix_rfl, ?_⟩
      rw [hsame]
      exact List.prefix_rfl
  | _, .block m n body, b => by
      obtain ⟨column, hbody, onBody⟩ := applyAll_parts body b (Bits64.signed m)
      rw [applyAll_cons, apply_opener, applyAll_append, hbody]
      refine ⟨apply_closer_push b column n, List.prefix_rfl, throughout_append.mpr ⟨onBody, ?_⟩⟩
      rw [apply_opener, hbody]
      exact ⟨columns_prefix_push b column, List.prefix_rfl⟩

/-- The parts of a block bring back all but its own column, and keep the blocks around it. -/
theorem applyAll_parts : ∀ {ks : List (KeywordRole × Nat)}, Parts ks → ∀ (b : Blocks) (column : Int),
    ∃ last, (b.push column).applyAll ks = b.push last ∧ Throughout b.Keeps (b.push column) ks
  | _, .single part, b, column => by
      obtain ⟨hpart, onPart⟩ := applyAll_nested part (b.push column)
      exact ⟨column, hpart, onPart.mono fun _ => Keeps.of_push⟩
  | _, .divider n front part, b, column => by
      obtain ⟨last, hfront, onFront⟩ := applyAll_parts front b column
      obtain ⟨hpart, onPart⟩ := applyAll_nested part (b.push (Bits64.signed n))
      refine ⟨Bits64.signed n, ?_, throughout_append.mpr ⟨onFront, ?_⟩⟩
      · rw [applyAll_append, hfront, applyAll_cons, apply_divider_push, hpart]
      · rw [hfront]
        exact ⟨columns_prefix_push b last, onPart.mono fun _ => Keeps.of_push⟩

end

/-- **Nested keywords restore the blocks.**  After nested keywords on lines of any indentation the
open blocks are what they were before, and at no point in between is a block missing or its column
changed. -/
theorem nested_restores_blocks {ks : List (KeywordRole × Nat)} (nested : Nested ks) (b : Blocks) :
    b.applyAll ks = b ∧ ∀ front, front <+: ks → b.columns <+: (b.applyAll front).columns := by
  obtain ⟨hrestored, kept⟩ := applyAll_nested nested b
  exact ⟨hrestored, fun _ h => kept.of_front h⟩

/-- A block of two parts inside of two others, with a block of its own in its first part. -/
theorem nested_restores_blocks_of_divided :
    Nested [(.opener, 3), (.opener, 9), (.closer, 1), (.divider, 5), (.neutral, 2), (.closer, 0)] ∧
      applyAll ⟨-4, [7, 0]⟩
        [(.opener, 3), (.opener, 9), (.closer, 1), (.divider, 5), (.neutral, 2), (.closer, 0)] =
        ⟨-4, [7, 0]⟩ ∧
      [-4, 0, 7] <+: (applyAll ⟨-4, [7, 0]⟩ [(.opener, 3), (.opener, 9), (.closer, 1),
        (.divider, 5)]).columns := by
  have nested : Nested [(.opener, 3), (.opener, 9), (.closer, 1), (.divider, 5), (.neutral, 2),
      (.closer, 0)] :=
    .block 3 0 (.divider 5 (.single (.block 9 1 (.single .nil))) (.neutral 2))
  obtain ⟨hrestored, kept⟩ := nested_restores_blocks nested ⟨-4, [7, 0]⟩
  exact ⟨nested, hrestored, kept _ ⟨[(.neutral, 2), (.closer, 0)], rfl⟩⟩

end Blocks

end BlockLayout
