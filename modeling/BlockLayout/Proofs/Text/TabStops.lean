import BlockLayout.Proofs.Text.Pieces
import BlockLayout.Text.Column
import Mathlib.Algebra.GroupWithZero.Nat
import Mathlib.Order.Bounds.Defs

/-! # Tab stops

The tab stops are the multiples of the tab size.  A tab leads from any column to the least of them that
lies beyond it (`isLeast_nextStop`); each other blank takes one column.  Columns are counted from the left:
what a text of blanks reaches is where the count of the text behind it goes on (`columnAfter_append`).

So the blanks in front of a line count by the fields between their tabs.  A field with a tab behind it takes
the stops that fit into it and one more, and only the blanks behind the last tab count one by one.

Main statement: `columns_by_fields`. -/

namespace BlockLayout.Text

/-- The first tab stop beyond a column. -/
def nextStop (tab column : Nat) : Nat := tab * (column / tab + 1)

/-- The text is some fields with a tab behind each, and a last field.  No field holds a tab. -/
structure Tabbed (t : Text) (fields : List Text) (last : Text) : Prop where
  spelled : t = fields.flatMap (· ++ ['\t']) ++ last
  free : ∀ field ∈ fields, '\t' ∉ field
  last_free : '\t' ∉ last

variable {tab column : Nat} {t u line last : Text} {fields : List Text}

theorem exists_tabbed (t : Text) : ∃ fields last, t.Tabbed fields last := by
  induction t with
  | nil => exact ⟨[], [], rfl, nofun, List.not_mem_nil⟩
  | cons c t ih =>
      obtain ⟨fields, last, rfl, free, last_free⟩ := ih
      by_cases hc : c = '\t'
      · subst hc
        exact ⟨[] :: fields, last, rfl, List.forall_mem_cons.mpr ⟨List.not_mem_nil, free⟩, last_free⟩
      · -- the character goes to the first field, or to the last one if there is no tab
        have hne : '\t' ≠ c := Ne.symm hc
        cases fields with
        | nil => exact ⟨[], c :: last, rfl, free, List.not_mem_cons_of_ne_of_not_mem hne last_free⟩
        | cons field fields =>
            obtain ⟨field_free, free⟩ := List.forall_mem_cons.mp free
            exact ⟨(c :: field) :: fields, last, rfl,
              List.forall_mem_cons.mpr ⟨List.not_mem_cons_of_ne_of_not_mem hne field_free, free⟩, last_free⟩

/-! ### The next stop -/

theorem nextStop_eq (pos : 0 < tab) (column : Nat) :
    column + (tab - column % tab) = nextStop tab column := by
  have hdiv := Nat.div_add_mod column tab
  have hmod := Nat.mod_lt column pos
  rw [nextStop, Nat.mul_add_one]
  omega

theorem nextStop_mul_add (pos : 0 < tab) (stops n : Nat) :
    nextStop tab (tab * stops + n) = tab * (stops + (n / tab + 1)) := by
  rw [nextStop, Nat.mul_add_div pos, Nat.add_assoc]

theorem isLeast_nextStop (pos : 0 < tab) (column : Nat) :
    IsLeast {later | tab ∣ later ∧ column < later} (nextStop tab column) := by
  refine ⟨⟨Nat.dvd_mul_right tab _, Nat.lt_mul_div_succ column pos⟩, ?_⟩
  rintro _ ⟨⟨stops, rfl⟩, beyond⟩
  exact Nat.mul_le_mul_left tab (Nat.div_lt_of_lt_mul beyond)

/-! ### Counting from a column -/

theorem columnAfter_tab (pos : 0 < tab) (column : Nat) (t : Text) :
    columnAfter tab column ('\t' :: t) = columnAfter tab (nextStop tab column) t := by
  rw [columnAfter, if_pos rfl, nextStop_eq pos]

/-- Where the count of blanks ends, that of the text behind them goes on. -/
theorem columnAfter_append (blank : u.isAllBlank = true) (column : Nat) (t : Text) :
    columnAfter tab column (u ++ t) = columnAfter tab (columnAfter tab column u) t := by
  induction u generalizing column with
  | nil => rfl
  | cons c u ih =>
      obtain ⟨hc, hu⟩ := List.forall_mem_cons.mp (isAllBlank_iff.mp blank)
      have ih := ih (isAllBlank_iff.mpr hu)
      by_cases htab : c = '\t'
      · simp [columnAfter, htab, ih]
      · simp [columnAfter, htab, hc, ih]

theorem columnAfter_of_free (blank : u.isAllBlank = true) (free : '\t' ∉ u) (column : Nat) :
    columnAfter tab column u = column + u.length := by
  induction u generalizing column with
  | nil => rfl
  | cons c u ih =>
      obtain ⟨hc, hu⟩ := List.forall_mem_cons.mp (isAllBlank_iff.mp blank)
      have hne : '\t' ≠ c := List.ne_of_not_mem_cons free
      have hfree : '\t' ∉ u := List.not_mem_of_not_mem_cons free
      rw [columnAfter, if_neg hne.symm, if_pos hc, ih (isAllBlank_iff.mpr hu) hfree,
        List.length_cons]
      omega

theorem columnAfter_of_visible (visible : t.StartsVisible) (column : Nat) :
    columnAfter tab column t = column := by
  cases t with
  | nil => rfl
  | cons c t =>
      have hc := startsVisible_cons.mp visible
      have htab : c ≠ '\t' := by
        rintro rfl
        exact absurd hc (by decide)
      simp [columnAfter, htab, hc]

/-- From a tab stop, fields with a tab behind each lead to a tab stop. -/
theorem columnAfter_fields (pos : 0 < tab) (blank : ∀ field ∈ fields, field.isAllBlank = true)
    (free : ∀ field ∈ fields, '\t' ∉ field) (stops : Nat) (t : Text) :
    columnAfter tab (tab * stops) (fields.flatMap (· ++ ['\t']) ++ t) =
      columnAfter tab (tab * (stops + (fields.map fun field => field.length / tab + 1).sum)) t := by
  induction fields generalizing stops with
  | nil => rfl
  | cons field fields ih =>
      obtain ⟨hblank, blank⟩ := List.forall_mem_cons.mp blank
      obtain ⟨hfree, free⟩ := List.forall_mem_cons.mp free
      rw [List.flatMap_cons, List.append_assoc, List.append_assoc, columnAfter_append hblank,
        columnAfter_of_free hblank hfree, List.singleton_append, columnAfter_tab pos,
        nextStop_mul_add pos, ih blank free, List.map_cons, List.sum_cons, Nat.add_assoc]

/-! ### The indentation of a line -/

theorem columns_append (tabSize : Nat) (blank : u.isAllBlank = true) (t : Text) :
    columns tabSize (u ++ t) = columnAfter (max tabSize 1) (columns tabSize u) t :=
  columnAfter_append blank 0 t

theorem columns_leadingBlanks (tabSize : Nat) (line : Text) :
    columns tabSize line.leadingBlanks = columns tabSize line := by
  have hline := columns_append tabSize (isAllBlank_leadingBlanks line) line.trimStart
  rw [leadingBlanks_append_trimStart, columnAfter_of_visible (startsVisible_trimStart line)] at hline
  exact hline.symm

theorem columns_replicate (tabSize n : Nat) {content : Text} (visible : content.StartsVisible) :
    columns tabSize (List.replicate n ' ' ++ content) = n := by
  have blank : isAllBlank (List.replicate n ' ') = true :=
    isAllBlank_iff.mpr fun c hc => by rw [List.eq_of_mem_replicate hc]; decide
  have free : '\t' ∉ List.replicate n ' ' := fun h => absurd (List.eq_of_mem_replicate h) (by decide)
  rw [columns_append tabSize blank, columnAfter_of_visible visible, columns,
    columnAfter_of_free blank free, List.length_replicate, Nat.zero_add]

theorem Tabbed.columns_eq (tabbed : line.leadingBlanks.Tabbed fields last) (tabSize : Nat) :
    columns tabSize line = max tabSize 1 *
      (fields.map fun field => field.length / max tabSize 1 + 1).sum + last.length := by
  have pos : 0 < max tabSize 1 := Nat.le_max_right tabSize 1
  have blank := isAllBlank_iff.mp (isAllBlank_leadingBlanks line)
  rw [tabbed.spelled] at blank
  have fields_blank : ∀ field ∈ fields, field.isAllBlank = true := fun field hfield =>
    isAllBlank_iff.mpr fun c hc => blank c (List.mem_append_left _
      (List.mem_flatMap.mpr ⟨field, hfield, List.mem_append_left _ hc⟩))
  have last_blank : last.isAllBlank = true :=
    isAllBlank_iff.mpr fun c hc => blank c (List.mem_append_right _ hc)
  have hfields := columnAfter_fields pos fields_blank tabbed.free 0 last
  rw [← columns_leadingBlanks, tabbed.spelled]
  rwa [Nat.mul_zero, Nat.zero_add, columnAfter_of_free last_blank tabbed.last_free] at hfields

/-- **Indentation is counted by fields.**  The leading blanks of a line fall into fields, and however they
do, the indentation is a stop for each tab, one more for every tab size of blanks in the field before it, and
a column for each blank behind the last tab.  So lines with the same leading blanks have the same indentation,
and `n` spaces in place of the leading blanks make it `n`.  Each tab among the leading blanks leads from the
column of those before it to the least tab stop beyond that column, and the count goes on from there. -/
theorem columns_by_fields (tabSize : Nat) (line : Text) :
    let tab := max tabSize 1
    (∃ fields last, line.leadingBlanks.Tabbed fields last) ∧
      (∀ fields last, line.leadingBlanks.Tabbed fields last → columns tabSize line =
        tab * (fields.map fun field => field.length / tab + 1).sum + last.length) ∧
      (∀ other : Text, other.leadingBlanks = line.leadingBlanks →
        columns tabSize other = columns tabSize line) ∧
      (∀ n : Nat, columns tabSize (List.replicate n ' ' ++ line.trimStart) = n) ∧
      ∀ before after : Text, line = before ++ '\t' :: after → before.isAllBlank = true →
        ∃ stop, IsLeast {later | tab ∣ later ∧ columns tabSize before < later} stop ∧
          columns tabSize (before ++ ['\t']) = stop ∧ columns tabSize line = columnAfter tab stop after := by
  intro tab
  have pos : 0 < tab := Nat.le_max_right tabSize 1
  refine ⟨exists_tabbed _, fun fields last tabbed => tabbed.columns_eq tabSize, fun other same => ?_,
    fun n => columns_replicate tabSize n (startsVisible_trimStart line), fun before after split blank => ?_⟩
  · rw [← columns_leadingBlanks, same, columns_leadingBlanks]
  · refine ⟨_, isLeast_nextStop pos _, ?_, ?_⟩
    · rw [columns_append tabSize blank, columnAfter_tab pos, columnAfter]
    · rw [split, columns_append tabSize blank, columnAfter_tab pos]

/-- Two tabs and a wide space behind them. -/
theorem columns_by_fields_of_two_tabs :
    let line : Text := "  \t     \t\u3000end\t".toList
    line.leadingBlanks.Tabbed ["  ".toList, "     ".toList] ['\u3000'] ∧
      columns 4 line = 4 * ((2 / 4 + 1) + (5 / 4 + 1)) + 1 ∧
      columns 4 "  \t     \t\u3000".toList = columns 4 line ∧ columns 4 "   end\t".toList = 3 ∧
      IsLeast {later | 4 ∣ later ∧ 9 < later} 12 ∧ columns 4 line = columnAfter 4 12 "\u3000end\t".toList := by
  intro line
  obtain ⟨-, hfields, hsame, hspaces, htab⟩ := columns_by_fields 4 line
  have tabbed : line.leadingBlanks.Tabbed ["  ".toList, "     ".toList] ['\u3000'] :=
    ⟨by decide, by decide, by decide⟩
  obtain ⟨stop, hleast, hstop, hline⟩ :=
    htab "  \t     ".toList "\u3000end\t".toList (by decide) (by decide)
  obtain rfl : 12 = stop := hstop
  exact ⟨tabbed, hfields _ _ tabbed, hsame _ (by decide), hspaces 3, hleast, hline⟩

end BlockLayout.Text
