import BlockLayout.Cursor.Action
import BlockLayout.Proofs.Cursor.OpenModes

/-! # Steps that go by the text

A host moves a cursor by steps, and most of them go by the text of the line: they pass over characters
that stand at the cursor, or go back over characters that stand before it.  `Action.GoesByText` names
these steps.  Left out are the steps that take an offset from the host, and the question for the present
token, which has no answer once the cursor has gone back before the start of the token.

One step by the text from between two characters is never a fault, and `Action.Moves` says what it may do
to the cursor (`Action.GoesByText.exists_moves`).  So whatever steps of this kind a host takes from the
start of a line, both offsets stay between characters.

Main statement: `steps_by_text_stay_on_boundaries`. -/

namespace BlockLayout

namespace Cursor

/-! ### One step -/

namespace Action

/-- The step looks or passes over characters, and begins no token. -/
def looksOn : Action → Bool
  | advance _ | moveTo _ | mark _ | current => false
  | backUp _ | beginToken | read => false
  | _ => true

/-- The step goes by the text of the line, not by an offset that the host gives, and does not ask for the
text between the offsets. -/
inductive GoesByText : Action → Prop where
  | looksOn {action : Action} (looks : action.looksOn = true) : GoesByText action
  | backUp (count : Nat) : GoesByText (backUp count)
  | beginToken : GoesByText beginToken
  | read : GoesByText read

/-- The step begins a token. -/
def beginsToken : Action → Bool
  | beginToken | read => true
  | _ => false

end Action

/-- The answer says that there is nothing, or that a question is not so. -/
def Answer.isFailure : Answer → Bool
  | flag value => !value
  | char value => value.isNone
  | _ => false

/-- Both offsets fall between two characters of the line. -/
structure OnBoundaries (c : Cursor) : Prop where
  position : c.line.IsBoundary c.position
  start : c.line.IsBoundary c.start

/-- What a step does to a cursor that gave the answer. -/
structure Action.Moves (action : Action) (c : Cursor) (answer : Answer) (moved : Cursor) :
    Prop where
  line : moved.line = c.line
  onBoundaries : moved.OnBoundaries
  failure : answer.isFailure = true → moved.position = c.position
  forward : (∀ count, action ≠ .backUp count) → c.position ≤ moved.position
  back : ∀ count, action = .backUp count → ∀ before after, c.StandsAt before after →
    moved.position = Text.byteLength (before.take (before.length - count))
  start : moved.start = if action.beginsToken then c.position else c.start

/-- The step passes over a text that stands at the cursor, over nothing if it fails. -/
def Action.Passes (action : Action) (c : Cursor) (mode : Mode) (after : Text) : Prop :=
  ∃ answer text, action.perform c mode = (.ok answer, c.pass text, mode) ∧ text <+: after ∧
    (answer.isFailure = true → text = [])

variable {c : Cursor} {mode : Mode} {before after : Text}

theorem StandsAt.passes_of_look (stands : c.StandsAt before after) {action : Action}
    (answer : Answer) (look : action.perform c mode = (.ok answer, c, mode)) :
    action.Passes c mode after :=
  ⟨answer, [], by rw [stands.pass_nil]; exact look, List.nil_prefix, fun _ => rfl⟩

theorem StandsAt.passes_of_takeIf (stands : c.StandsAt before after) {action : Action}
    {accepts : Char → Bool} {wrap : Option Char → Answer}
    (take : action.perform c mode = Answer.move c mode wrap (c.takeIf accepts))
    (fails : ∀ found, (wrap found).isFailure = true → found = none) :
    action.Passes c mode after := by
  refine ⟨wrap (after.head?.filter accepts), (after.head?.filter accepts).toList, ?_, ?_, ?_⟩
  · rw [take, stands.takeIf_eq]
    rfl
  · cases after with
    | nil => exact List.nil_prefix
    | cons d t =>
        rw [List.head?_cons, Option.filter_some]
        split
        · exact ⟨t, rfl⟩
        · exact List.nil_prefix
  · intro failed
    rw [fails _ failed, Option.toList_none]

/-- Every step that looks on passes over a text. -/
theorem StandsAt.passes (stands : c.StandsAt before after) (boundary : c.line.IsBoundary c.start)
    {action : Action} (looks : action.looksOn = true) : action.Passes c mode after := by
  cases action with
  | advance bytes => cases looks
  | moveTo offset => cases looks
  | mark offset => cases looks
  | current => cases looks
  | backUp count => cases looks
  | beginToken => cases looks
  | read => cases looks
  | isAtStart => exact stands.passes_of_look _ rfl
  | isAtEnd => exact stands.passes_of_look _ rfl
  | line => exact stands.passes_of_look _ rfl
  | indentation => exact stands.passes_of_look _ rfl
  | tabSize => exact stands.passes_of_look _ rfl
  | peek =>
      refine stands.passes_of_look (.char after.head?) ?_
      simp only [Action.perform, Answer.keep, stands.peek_eq]
      rfl
  | rest =>
      refine stands.passes_of_look (.text after) ?_
      simp only [Action.perform, Answer.keep, stands.rest_eq]
      rfl
  | beforeToken =>
      obtain ⟨parts, hparts⟩ := Option.isSome_iff_exists.mp boundary
      refine stands.passes_of_look (.char parts.1.getLast?) ?_
      simp only [Action.perform, Answer.keep, Cursor.beforeToken, cut, hparts]
      rfl
  | next => exact stands.passes_of_takeIf rfl fun found => Option.isNone_iff_eq_none.mp
  | takeIf accepts => exact stands.passes_of_takeIf rfl fun found => Option.isNone_iff_eq_none.mp
  | takeChar char =>
      refine stands.passes_of_takeIf rfl fun found failed => ?_
      exact Option.isSome_eq_false_iff.mp ((Bool.not_eq_true' _).mp failed) |>
        Option.isNone_iff_eq_none.mp
  | takeWhile accepts =>
      refine ⟨.flag !(after.takeWhile accepts).isEmpty, after.takeWhile accepts, ?_,
        List.takeWhile_prefix accepts, fun failed => ?_⟩
      · simp only [Action.perform, stands.takeWhile_eq, Answer.move]
      · simpa [Answer.isFailure] using failed
  | skipToEnd =>
      refine ⟨.nothing, after, ?_, List.prefix_rfl, fun failed => absurd failed Bool.false_ne_true⟩
      simp only [Action.perform, stands.skipToEnd_eq]
  | takeText text =>
      by_cases hprefix : text.isPrefixOf after = true
      · refine ⟨.flag true, text, ?_, List.isPrefixOf_iff_prefix.mp hprefix,
          fun failed => absurd failed Bool.false_ne_true⟩
        simp only [Action.perform, stands.takeText_eq, hprefix, if_true, Answer.move]
      · refine stands.passes_of_look (.flag false) ?_
        simp only [Action.perform, stands.takeText_eq, hprefix, Answer.move]
        rfl
  | takeMatch recognise =>
      refine ⟨.flag !(after.take (recognise after)).isEmpty, after.take (recognise after), ?_,
        List.take_prefix _ _, fun failed => ?_⟩
      · simp only [Action.perform, stands.takeMatch_eq, Answer.move]
      · simpa [Answer.isFailure] using failed

/-- One step by the text is no fault and moves the cursor as it may. -/
theorem Action.GoesByText.exists_moves {action : Action} (byText : action.GoesByText)
    (h : c.OnBoundaries) (mode : Mode) : ∃ answer moved mode',
      action.perform c mode = (.ok answer, moved, mode') ∧ action.Moves c answer moved := by
  obtain ⟨before, after, stands⟩ := exists_standsAt h.position
  cases byText with
  | looksOn looks =>
      have hpasses : action.Passes c mode after := stands.passes h.start looks
      obtain ⟨answer, text, hperform, ⟨rest, rfl⟩, hfails⟩ := hpasses
      refine ⟨answer, _, mode, hperform, ?_⟩
      have hposition : (c.pass text).position = c.position + text.byteLength := by
        rw [stands.standsAt_pass.2, stands.2, Text.byteLength_append]
      exact {
        line := rfl
        onBoundaries := ⟨stands.standsAt_pass.isBoundary, h.start⟩
        failure := fun fails => by rw [hposition, hfails fails, Text.byteLength_nil, Nat.add_zero]
        forward := fun _ => by rw [hposition]; exact Nat.le_add_right _ _
        back := fun count hback => by subst hback; cases looks
        start := by cases action <;> first | rfl | cases looks }
  | backUp count =>
      refine ⟨.nothing, { c with position := Text.byteLength (before.take (before.length - count)) },
        mode, by simp only [Action.perform, stands.backUp_eq]; rfl, ?_⟩
      have hline : c.line = before.take (before.length - count) ++
          (before.drop (before.length - count) ++ after) := by
        rw [← List.append_assoc, List.take_append_drop]
        exact stands.1
      exact {
        line := rfl
        onBoundaries := ⟨Text.isBoundary_iff.mpr ⟨_, _, hline, rfl⟩, h.start⟩
        failure := nofun
        forward := fun hforward => absurd rfl (hforward count)
        back := fun count' hback before' after' stands' => by
          obtain rfl := (Action.backUp.inj hback)
          rw [(stands.unique stands').1]
        start := rfl }
  | beginToken =>
      refine ⟨.nothing, { c with start := c.position }, mode,
        by simp only [Action.perform, stands.beginToken_eq], ?_⟩
      exact {
        line := rfl
        onBoundaries := ⟨h.position, h.position⟩
        failure := nofun
        forward := fun _ => Nat.le_refl _
        back := nofun
        start := rfl }
  | read =>
      obtain ⟨token, rest, moved, rfl, -, hread, hstart, hstands, -⟩ :=
        stands.exists_readWith (s := mode) rfl (Mode.length_read_le mode before.getLast? after)
      have hline : moved.line = c.line := by
        rw [hstands.1, stands.1, List.append_assoc]
      have hposition : moved.position = c.position + token.byteLength := by
        rw [hstands.2, stands.2, Text.byteLength_append]
      refine ⟨_, moved, _, by simp only [Action.perform, readMode_eq, hread]; rfl, ?_⟩
      exact {
        line := hline
        onBoundaries := ⟨hstands.isBoundary, by rw [hline, hstart]; exact h.position⟩
        failure := nofun
        forward := fun _ => by rw [hposition]; exact Nat.le_add_right _ _
        back := nofun
        start := hstart }

/-! ### Steps one after the other -/

/-- Carries steps out one after the other: their answers, and the cursor and the mode behind them. -/
def performAll (c : Cursor) (mode : Mode) :
    List Action → List (Except Fault Answer) × Cursor × Mode
  | [] => ([], c, mode)
  | action :: actions =>
    let (answer, moved, mode) := action.perform c mode
    let (answers, last) := moved.performAll mode actions
    (answer :: answers, last)

theorem performAll_append (c : Cursor) (mode : Mode) (actions later : List Action) :
    c.performAll mode (actions ++ later) =
      let (answers, moved, mode) := c.performAll mode actions
      let (answers', last) := moved.performAll mode later
      (answers ++ answers', last) := by
  induction actions generalizing c mode with
  | nil => rfl
  | cons action actions ih => simp only [List.cons_append, performAll, ih]

/-- Steps by the text are no faults and leave both offsets between characters of the same line. -/
theorem OnBoundaries.performAll {actions : List Action} (h : c.OnBoundaries)
    (byText : ∀ action ∈ actions, action.GoesByText) (mode : Mode) :
    (∀ answer ∈ (c.performAll mode actions).1, ∃ value, answer = .ok value) ∧
      (c.performAll mode actions).2.1.line = c.line ∧
      (c.performAll mode actions).2.1.OnBoundaries := by
  induction actions generalizing c mode with
  | nil => exact ⟨nofun, rfl, h⟩
  | cons action actions ih =>
      obtain ⟨answer, moved, mode', hperform, hmoves⟩ :=
        (byText action List.mem_cons_self).exists_moves h mode
      obtain ⟨hanswers, hline, hlast⟩ :=
        ih hmoves.onBoundaries (fun a ha => byText a (List.mem_cons_of_mem _ ha)) mode'
      simp only [Cursor.performAll, hperform]
      exact ⟨List.forall_mem_cons.mpr ⟨⟨answer, rfl⟩, hanswers⟩, hline.trans hmoves.line, hlast⟩

theorem StandsAt.performAll_next (stands : c.StandsAt before after) {text : Text}
    (taken : (c.performAll mode (List.replicate text.length .next)).1 =
      text.map fun char => .ok (.char (some char))) :
    text <+: after ∧
      (c.performAll mode (List.replicate text.length .next)).2 = (c.pass text, mode) := by
  induction text generalizing c before after with
  | nil => exact ⟨List.nil_prefix, by rw [stands.pass_nil]; rfl⟩
  | cons d text ih =>
      have hnext : Action.next.perform c mode =
          (.ok (.char (after.head?.filter fun _ => true)),
            c.pass (after.head?.filter fun _ => true).toList, mode) := by
        simp only [Action.perform, Cursor.next, stands.takeIf_eq, Answer.move]
      simp only [List.length_cons, List.replicate_succ, performAll, hnext, List.map_cons,
        List.cons.injEq, Except.ok.injEq, Answer.char.injEq] at taken ⊢
      obtain ⟨hfirst, htaken⟩ := taken
      cases after with
      | nil => cases hfirst
      | cons d' after =>
          obtain rfl : d' = d := Option.some.inj hfirst
          have hfirst : c.StandsAt before ([d'] ++ after) := stands
          obtain ⟨⟨rest, rfl⟩, hlast⟩ := ih hfirst.standsAt_pass htaken
          have hboth : (c.pass [d']).pass text = c.pass ([d'] ++ text) := hfirst.pass_pass
          exact ⟨⟨rest, rfl⟩, hlast.trans (congrArg (·, mode) hboth)⟩

/-- Taking characters and going back over as many leaves the cursor where it was. -/
theorem StandsAt.performAll_next_backUp (stands : c.StandsAt before after) {text : Text}
    (taken : (c.performAll mode (List.replicate text.length .next)).1 =
      text.map fun char => .ok (.char (some char))) :
    (c.performAll mode (List.replicate text.length .next ++ [.backUp text.length])).2 = (c, mode) := by
  obtain ⟨⟨rest, rfl⟩, hlast⟩ := stands.performAll_next taken
  rw [performAll_append]
  simp only [performAll, hlast, Action.perform, stands.standsAt_pass.backUp_eq, Except.map, Answer.move]
  rw [List.length_append, Nat.add_sub_cancel, List.take_left, stands.pass_eq, ← stands.2]

/-! ### Searches that report byte offsets -/

namespace Search

/-- The search reports matches that start and end between characters. -/
def OnBoundaries (find : Search) : Prop :=
  ∀ text first last, find text = some (first, last) → text.IsBoundary first ∧ text.IsBoundary last

/-- The number of characters of a match at the very start. -/
def atStart (find : Search) (text : Text) : Nat :=
  match find text with
  | some (0, last + 1) => ((text.cutAt? (last + 1)).map fun parts => parts.1.length).getD 0
  | _ => 0

end Search

/-- Passing over the bytes of a match is passing over its characters. -/
theorem StandsAt.takeFound_eq (stands : c.StandsAt before after) {find : Search}
    (onBoundaries : find.OnBoundaries) : c.takeFound find = c.takeMatch find.atStart := by
  have hnone (none : find.atStart after = 0) : (.ok (false, c) : Except Fault (Bool × Cursor)) =
      .ok (!(after.take (find.atStart after)).isEmpty, c.pass (after.take (find.atStart after))) := by
    rw [none, List.take_zero, stands.pass_nil]
    rfl
  rw [stands.takeMatch_eq]
  unfold takeFound
  rw [stands.rest_eq]
  simp only [bind, Except.bind]
  rcases hfind : find after with _ | ⟨_ | first, _ | last⟩
  · exact hnone (by rw [Search.atStart, hfind])
  · exact hnone (by rw [Search.atStart, hfind]; rfl)
  · obtain ⟨text, rest, rfl, hlast⟩ : ∃ text rest, after = text ++ rest ∧
        last + 1 = text.byteLength := Text.isBoundary_iff.mp (onBoundaries _ _ _ hfind).2
    have hcount : find.atStart (text ++ rest) = text.length := by
      rw [Search.atStart, hfind]
      change ((Text.cutAt? (last + 1) (text ++ rest)).map fun parts => parts.1.length).getD 0 = _
      rw [hlast, Text.cutAt?_append]
      rfl
    have hne : text ≠ [] := by
      rintro rfl
      exact absurd hlast (Nat.succ_ne_zero last)
    rw [hcount, List.take_left, Bool.eq_false_iff.mpr (mt List.isEmpty_iff.mp hne), pass, ← hlast]
    rfl
  · exact hnone (by rw [Search.atStart, hfind]; rfl)
  · exact hnone (by rw [Search.atStart, hfind]; rfl)

/-- **Steps by the text keep both offsets between characters.**  Let a host take any such steps from the
start of a line, in any mode.  None is a fault, and then the cursor stands between two characters of the
line, and so does the start of the token.  A further step is no fault either: it moves the cursor forward
unless it goes back, leaves it where it is if it fails, goes back by as many characters as it is told and
no further than the start of the line, and begins a token only if it is meant to.  To go back over
characters that were just taken restores the cursor.  And a pattern may be searched by byte offsets, if the
search reports only such that fall between characters. -/
theorem steps_by_text_stay_on_boundaries (line : Text) (tabSize : Nat) (mode : Mode)
    {earlier : List Action} (byText : ∀ action ∈ earlier, action.GoesByText) :
    let run := (atStart line tabSize).performAll mode earlier
    let c := run.2.1
    (∀ answer ∈ run.1, ∃ value, answer = .ok value) ∧
      c.line = line ∧ c.OnBoundaries ∧ c.position ≤ line.byteLength ∧ c.start ≤ line.byteLength ∧
      (∀ action : Action, action.GoesByText → ∃ answer moved mode',
        action.perform c run.2.2 = (.ok answer, moved, mode') ∧ action.Moves c answer moved) ∧
      (∀ text : Text, (c.performAll run.2.2 (List.replicate text.length .next)).1 =
          text.map (fun char => .ok (.char (some char))) →
        (c.performAll run.2.2 (List.replicate text.length .next ++ [.backUp text.length])).2.1 = c) ∧
      ∀ find : Search, find.OnBoundaries → c.takeFound find = c.takeMatch find.atStart := by
  intro run c
  have hstart : (atStart line tabSize).OnBoundaries := by
    have hboundary := (standsAt_atStart line tabSize).isBoundary
    exact ⟨hboundary, hboundary⟩
  obtain ⟨hanswers, hline, hlast⟩ := hstart.performAll byText mode
  obtain ⟨before, after, stands⟩ : ∃ before after, c.StandsAt before after :=
    exists_standsAt hlast.position
  have hwithin : ∀ offset, c.line.IsBoundary offset → offset ≤ line.byteLength := by
    intro offset hoffset
    rw [show c.line = line from hline] at hoffset
    exact hoffset.le
  refine ⟨hanswers, hline, hlast, hwithin _ hlast.position, hwithin _ hlast.start,
    fun action h => h.exists_moves hlast _, fun text taken => ?_, fun find h => stands.takeFound_eq h⟩
  rw [stands.performAll_next_backUp taken]

/-- A token begun behind a character of two bytes. -/
theorem steps_by_text_behind_accent :
    let earlier : List Action := [.next, .beginToken, .takeText ": ".toList, .backUp 1]
    let run := (atStart "é: x".toList 4).performAll .base earlier
    let find : Search := fun text => if text.head? = some ' ' then some (0, 1) else none
    (∀ action ∈ earlier, action.GoesByText) ∧ find.OnBoundaries ∧
      run.2.1 = { line := "é: x".toList, position := 3, start := 2 } ∧ run.2.1.OnBoundaries ∧
      (run.2.1.performAll run.2.2 [.next, .next, .backUp 2]).2.1 = run.2.1 ∧
      run.2.1.takeFound find = run.2.1.takeMatch find.atStart := by
  intro earlier run find
  have byText : ∀ action ∈ earlier, action.GoesByText := by
    simp only [earlier, List.forall_mem_cons]
    exact ⟨.looksOn rfl, .beginToken, .looksOn rfl, .backUp 1, nofun⟩
  have hfind : find.OnBoundaries := by
    intro text first last h
    obtain ⟨hhead, hfound⟩ := Option.ite_none_right_eq_some.mp h
    obtain ⟨t, rfl⟩ := List.head?_eq_some_iff.mp hhead
    obtain ⟨rfl, rfl⟩ := Prod.mk.inj (Option.some.inj hfound)
    exact ⟨rfl, Text.isBoundary_iff.mpr ⟨[' '], t, rfl, rfl⟩⟩
  obtain ⟨-, -, hboundaries, -, -, -, hback, hsearch⟩ :=
    steps_by_text_stay_on_boundaries "é: x".toList 4 .base byText
  exact ⟨byText, hfind, rfl, hboundaries, hback " x".toList rfl, hsearch find hfind⟩

end Cursor

end BlockLayout
