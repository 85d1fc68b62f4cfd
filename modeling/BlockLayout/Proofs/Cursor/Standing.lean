import BlockLayout.Cursor.Recogniser
import BlockLayout.Token.Reading

/-! # Where a cursor stands

A cursor that never fell inside a character cuts its line in two.  `Cursor.StandsAt c before after`
names the two parts; the offsets of the cursor are a view of them.  In these terms a step that takes
something passes over a text that the second part starts with, and a step back cuts the first part
short.  `readWith_eq` gives one reading step: the cursor passes over the token that the step takes. -/

namespace BlockLayout

namespace Text

/-- The offset falls between two characters of the text, or at one of its ends. -/
def IsBoundary (t : Text) (offset : Nat) : Prop := (t.cutAt? offset).isSome = true

instance (t : Text) (offset : Nat) : Decidable (t.IsBoundary offset) :=
  inferInstanceAs (Decidable (_ = true))

theorem isBoundary_iff {t : Text} {offset : Nat} :
    t.IsBoundary offset ↔ ∃ before after, t = before ++ after ∧ offset = before.byteLength := by
  unfold IsBoundary
  rw [Option.isSome_iff_exists]
  constructor
  · rintro ⟨⟨before, after⟩, h⟩
    obtain ⟨rfl, rfl⟩ := eq_append_of_cutAt? h
    exact ⟨before, after, rfl, rfl⟩
  · rintro ⟨before, after, rfl, rfl⟩
    exact ⟨(before, after), cutAt?_append before after⟩

theorem IsBoundary.le {t : Text} {offset : Nat} (h : t.IsBoundary offset) :
    offset ≤ t.byteLength := by
  obtain ⟨before, after, rfl, rfl⟩ := isBoundary_iff.mp h
  rw [byteLength_append]
  exact Nat.le_add_right _ _

end Text

namespace Cursor

/-- The line before the cursor and the line after it. -/
def StandsAt (c : Cursor) (before after : Text) : Prop :=
  c.line = before ++ after ∧ c.position = before.byteLength

/-- The cursor at the start of a line. -/
def atStart (line : Text) (tabSize : Nat) : Cursor := { line, tabSize }

theorem standsAt_atStart (line : Text) (tabSize : Nat) :
    (atStart line tabSize).StandsAt [] line := ⟨rfl, rfl⟩

variable {c : Cursor} {before after : Text}

theorem StandsAt.isBoundary (h : c.StandsAt before after) : c.line.IsBoundary c.position :=
  Text.isBoundary_iff.mpr ⟨before, after, h⟩

/-- A cursor between two characters, or at an end of its line, cuts the line there. -/
theorem exists_standsAt (boundary : c.line.IsBoundary c.position) :
    ∃ before after, c.StandsAt before after := Text.isBoundary_iff.mp boundary

theorem StandsAt.size_eq (h : c.StandsAt before after) :
    c.size = before.byteLength + after.byteLength := by
  unfold size
  rw [h.1, Text.byteLength_append]

theorem StandsAt.unique {before' after' : Text} (stands : c.StandsAt before after)
    (stands' : c.StandsAt before' after') : before = before' ∧ after = after' := by
  have hcut : c.line.cutAt? c.position = some (before, after) := by
    rw [stands.1, stands.2, Text.cutAt?_append]
  rw [stands'.1, stands'.2, Text.cutAt?_append] at hcut
  obtain ⟨rfl, rfl⟩ := Prod.mk.inj (Option.some.inj hcut)
  exact ⟨rfl, rfl⟩

theorem StandsAt.cut_eq (h : c.StandsAt before after) : c.cut c.position = .ok (before, after) := by
  unfold cut
  rw [h.1, h.2, Text.cutAt?_append]

theorem StandsAt.rest_eq (h : c.StandsAt before after) : c.rest = .ok after := by
  unfold rest
  rw [h.cut_eq]
  rfl

theorem StandsAt.isAtEnd_iff (h : c.StandsAt before after) : c.isAtEnd = true ↔ after = [] := by
  unfold isAtEnd
  rw [decide_eq_true_iff, h.size_eq, h.2]
  cases after with
  | nil => simp
  | cons d t =>
      have := Text.byteLength_pos (List.cons_ne_nil d t)
      simp only [ge_iff_le, reduceCtorEq, iff_false]
      omega

/-! ### What the steps give -/

theorem StandsAt.pass_eq {text rest : Text} (h : c.StandsAt before (text ++ rest)) :
    c.pass text = { c with position := (before ++ text).byteLength } := by
  have hsize : c.size = before.byteLength + (text ++ rest).byteLength := h.size_eq
  have hend : min (c.position + text.byteLength) c.size = (before ++ text).byteLength := by
    rw [hsize, h.2, Text.byteLength_append, Text.byteLength_append]
    omega
  unfold pass advance moveTo
  rw [hend]

theorem StandsAt.standsAt_pass {text rest : Text} (h : c.StandsAt before (text ++ rest)) :
    (c.pass text).StandsAt (before ++ text) rest := by
  rw [h.pass_eq]
  exact ⟨by rw [List.append_assoc]; exact h.1, rfl⟩

theorem StandsAt.pass_pass {first second rest : Text}
    (h : c.StandsAt before (first ++ (second ++ rest))) :
    (c.pass first).pass second = c.pass (first ++ second) := by
  have hboth : c.StandsAt before ((first ++ second) ++ rest) := by
    rw [List.append_assoc]
    exact h
  rw [h.standsAt_pass.pass_eq, h.pass_eq, hboth.pass_eq, List.append_assoc]

theorem StandsAt.pass_nil (h : c.StandsAt before after) : c.pass [] = c := by
  have hfollows : c.StandsAt before ([] ++ after) := h
  rw [hfollows.pass_eq, List.append_nil, ← h.2]

theorem StandsAt.peek_eq (h : c.StandsAt before after) : c.peek = .ok after.head? := by
  unfold peek
  rw [h.rest_eq]
  rfl

theorem StandsAt.takeIf_eq (h : c.StandsAt before after) (accepts : Char → Bool) :
    c.takeIf accepts =
      .ok (after.head?.filter accepts, c.pass (after.head?.filter accepts).toList) := by
  unfold takeIf
  rw [h.peek_eq]
  cases hfound : after.head?.filter accepts with
  | none =>
      simp only [bind, Except.bind, hfound, Option.toList_none, h.pass_nil]
      rfl
  | some char =>
      simp only [bind, Except.bind, hfound, Option.toList_some]
      rfl

theorem StandsAt.takeWhile_eq (h : c.StandsAt before after) (accepts : Char → Bool) :
    c.takeWhile accepts = .ok (after.takeWhile accepts, c.pass (after.takeWhile accepts)) := by
  unfold takeWhile
  rw [h.rest_eq]
  rfl

theorem StandsAt.takeMatch_eq (h : c.StandsAt before after) (recognise : Text → Nat) :
    c.takeMatch recognise = .ok (!(after.take (recognise after)).isEmpty,
      c.pass (after.take (recognise after))) := by
  unfold takeMatch
  rw [h.rest_eq]
  rfl

theorem StandsAt.takeText_eq (h : c.StandsAt before after) (text : Text) :
    c.takeText text =
      if text.isPrefixOf after then .ok (true, c.pass text) else .ok (false, c) := by
  unfold takeText
  rw [h.rest_eq]
  rfl

theorem StandsAt.skipToEnd_eq (h : c.StandsAt before after) : c.skipToEnd = c.pass after := by
  have hfollows : c.StandsAt before (after ++ []) := by
    rw [List.append_nil]
    exact h
  rw [hfollows.pass_eq]
  unfold skipToEnd moveTo
  rw [Nat.min_self, h.size_eq, Text.byteLength_append]

theorem StandsAt.beginToken_eq (h : c.StandsAt before after) :
    c.beginToken = { c with start := c.position } := by
  unfold beginToken mark
  rw [Nat.min_eq_left (by rw [h.size_eq, h.2]; exact Nat.le_add_right _ _)]

theorem StandsAt.backUp_eq (h : c.StandsAt before after) (count : Nat) :
    c.backUp count =
      .ok { c with position := Text.byteLength (before.take (before.length - count)) } := by
  unfold backUp
  by_cases hzero : count = 0
  · rw [if_pos hzero, hzero, Nat.sub_zero, List.take_length, ← h.2]
    rfl
  · have hsplit : before.byteLength = Text.byteLength (before.take (before.length - count)) +
        Text.byteLength (before.drop (before.length - count)) := by
      rw [← Text.byteLength_append, List.take_append_drop]
    have hle : Text.byteLength (before.take (before.length - count)) ≤ c.size := by
      rw [h.size_eq]
      omega
    rw [if_neg hzero, h.cut_eq]
    simp only [bind, Except.bind, moveTo, Nat.min_eq_left hle]
    rfl

/-! ### Reading -/

/-- Reads one token with a step of reading.  If the cursor stands inside a character, a token is
begun there but nothing is read. -/
def readWith {σ : Type} (step : σ → Option Char → Text → Reading σ) (c : Cursor) (state : σ) :
    Except Fault TokenClass × Cursor × σ :=
  let c := c.beginToken
  match c.cut c.position with
  | .error fault => (.error fault, c, state)
  | .ok (before, after) =>
    let reading := step state before.getLast? after
    (.ok reading.cls, c.pass (after.take reading.length), reading.state)

/-- One reading step: the cursor passes over the token, which started where the cursor stood. -/
theorem StandsAt.readWith_eq {σ : Type} {step : σ → Option Char → Text → Reading σ} {s next : σ}
    {cls : TokenClass} {token rest : Text} (h : c.StandsAt before (token ++ rest))
    (read : step s before.getLast? (token ++ rest) = ⟨cls, token.length, next⟩) :
    c.readWith step s =
      (.ok cls, { c with position := (before ++ token).byteLength, start := c.position }, next) := by
  have hbegun : StandsAt { c with start := c.position } before (token ++ rest) := h
  unfold readWith
  simp only [h.beginToken_eq, hbegun.cut_eq, read, List.take_left, hbegun.pass_eq]

theorem current_eq {token rest : Text} (hline : c.line = before ++ (token ++ rest))
    (hstart : c.start = before.byteLength) (hposition : c.position = (before ++ token).byteLength) :
    c.current = .ok token := by
  have hle : ¬ c.position < c.start := by
    rw [hstart, hposition, Text.byteLength_append]
    omega
  have hstartCut : c.cut c.start = .ok (before, token ++ rest) := by
    unfold cut
    rw [hline, hstart, Text.cutAt?_append]
  have hpositionCut : c.cut c.position = .ok (before ++ token, rest) := by
    unfold cut
    rw [hline, hposition, ← List.append_assoc, Text.cutAt?_append]
  unfold current
  rw [if_neg hle, hstartCut, hpositionCut]
  simp [bind, Except.bind, pure, Except.pure]

end Cursor

end BlockLayout
