import BlockLayout.Document.State
import BlockLayout.Proofs.Document.Reading
import BlockLayout.Proofs.Token.Bodies
import Mathlib.Data.List.Induction

/-! # Strings over several lines

A string is open after a line either because the line ends with a backslash, or because it was open
before and the line is blank: blanks are passed over without a look at the mode, so that nothing on
a blank line closes a string (`string_readLine`, `mode_readLine_of_blank`).  Over any lines from the
start of a document a string is therefore open only if the last line that is not blank ends with a
backslash (`escape_of_string`).

Main statement: `string_needs_escape_iff`. -/

namespace BlockLayout

/-- The last line that is not blank ends with a backslash. -/
def Text.endsInEscape (lines : List Text) : Bool :=
  (lines.filter fun l => !l.isAllBlank).getLast?.any fun l => l.getLast? == some '\\'

theorem Text.endsInEscape_concat_blank (lines : List Text) {line : Text}
    (blank : line.isAllBlank = true) : endsInEscape (lines ++ [line]) = endsInEscape lines := by
  simp [endsInEscape, blank]

theorem Text.isAllBlank_of_escape {line : Text} (escape : line.getLast? = some '\\') :
    line.isAllBlank = false := by
  rw [Bool.eq_false_iff]
  intro blank
  have h := isAllBlank_iff.mp blank _ (List.mem_of_getLast? escape)
  exact absurd h (by decide)

theorem Text.endsInEscape_concat_escape (lines : List Text) {line : Text}
    (escape : line.getLast? = some '\\') : endsInEscape (lines ++ [line]) = true := by
  simp [endsInEscape, isAllBlank_of_escape escape, escape]

namespace LineState

variable {tabSize : Nat} {s last : LineState} {before : Option Char} {input token rest line : Text}
  {lexemes : List Lexeme} {cls : TokenClass} {q : Char}

/-! ### One line -/

theorem string_next (nonempty : token ≠ [])
    (read : next tabSize s before (token ++ rest) = ⟨cls, token.length, last⟩)
    (opened : last.mode = .string q) :
    token.isAllBlank = true ∧ s.mode = .string q ∨
      rest = [] ∧ token.getLast? = some '\\' ∧ (q = '"' ∨ s.mode = .string q) := by
  rcases next_cases nonempty read with ⟨hblank, -, rfl⟩ | ⟨-, hread⟩
  · rw [mode_measure] at opened
    exact Or.inl ⟨hblank, opened⟩
  · have hne := List.append_ne_nil_of_left_ne_nil nonempty rest
    have hopen : Mode.LeavesOpen s.mode (token ++ rest) (s.mode.read before (token ++ rest)) :=
      Mode.read_open hne (by rw [hread, opened]; simp)
    rw [hread] at hopen
    obtain ⟨hescape, hquote⟩ := hopen.escape q opened
    have hrest : rest = [] := by
      have hwhole : token.length = (token ++ rest).length := hopen.whole
      rw [List.length_append] at hwhole
      exact List.length_eq_zero_iff.mp (by omega)
    rw [hrest, List.append_nil] at hescape
    exact Or.inr ⟨hrest, hescape, hquote.imp And.right id⟩

/-- A string that is open after a text: the text is blank and the string was open before, or the text
ends with a backslash. -/
theorem string_of_cuts (h : Cuts (next tabSize) s before input lexemes last)
    (opened : last.mode = .string q) :
    input.isAllBlank = true ∧ s.mode = .string q ∨
      input.getLast? = some '\\' ∧ (q = '"' ∨ s.mode = .string q) := by
  induction h with
  | nil s before => exact Or.inl ⟨Text.isAllBlank_nil, opened⟩
  | @cons s next last before cls token rest lexemes nonempty read tail ih =>
      rcases ih opened with ⟨hrest, hstring⟩ | ⟨hescape, hquote⟩
      · rcases string_next nonempty read hstring with ⟨htoken, hs⟩ | ⟨rfl, hescape, hquote⟩
        · left
          simp only [Text.isAllBlank, List.all_append] at htoken hrest ⊢
          rw [htoken, hrest]
          exact ⟨rfl, hs⟩
        · rw [List.append_nil]
          exact Or.inr ⟨hescape, hquote⟩
      · right
        rw [List.getLast?_append, hescape]
        refine ⟨rfl, hquote.elim Or.inl fun hstring => ?_⟩
        rcases string_next nonempty read hstring with ⟨-, hs⟩ | ⟨rfl, -⟩
        · exact Or.inr hs
        · cases hescape

theorem string_readLine (opened : (s.readLine tabSize line).2.mode = .string q) :
    line.isAllBlank = true ∧ s.mode = .string q ∨
      line.getLast? = some '\\' ∧ (q = '"' ∨ s.mode = .string q) :=
  string_of_cuts (cuts_readLine tabSize s line) opened

theorem mode_readLine_of_blank (tabSize : Nat) (s : LineState) (blank : line.isAllBlank = true) :
    (s.readLine tabSize line).2.mode = s.mode := by
  by_cases hnil : line = []
  · rw [hnil, readLine, cutLine_nil]
  · have hread := readLine_blanks tabSize s hnil blank Text.startsVisible_nil
    rw [List.append_nil, cutLine_nil] at hread
    rw [hread]

/-! ### Lines one after the other -/

theorem annotateLines_concat (tabSize : Nat) (s : LineState) (number : Nat) (lines : List Text)
    (line : Text) :
    (s.annotateLines tabSize number (lines ++ [line])).2 =
      ((s.annotateLines tabSize number lines).2.readLine tabSize line).2 := by
  induction lines generalizing s number with
  | nil => rfl
  | cons l lines ih => exact ih (s.annotate tabSize number l).2 (number + 1)

end LineState

namespace Document

/-- The state that lines leave, read one after the other from the start of a document. -/
def stateAfter (settings : Settings) (lines : List Text) : LineState :=
  ((LineState.start settings).annotateLines settings.tabSize 1 lines).2

theorem stateAfter_concat (settings : Settings) (lines : List Text) (line : Text) :
    stateAfter settings (lines ++ [line]) =
      ((stateAfter settings lines).readLine settings.tabSize line).2 :=
  LineState.annotateLines_concat settings.tabSize _ 1 lines line

/-- A string is open only behind a line that ends with a backslash and blank lines. -/
theorem escape_of_string {settings : Settings} {lines : List Text} {q : Char}
    (opened : (stateAfter settings lines).mode = .string q) :
    q = '"' ∧ Text.endsInEscape lines = true := by
  induction lines using List.reverseRecOn with
  | nil => cases opened
  | append_singleton lines line ih =>
      rw [stateAfter_concat] at opened
      rcases LineState.string_readLine opened with ⟨hblank, hstring⟩ | ⟨hescape, hquote⟩
      · rw [Text.endsInEscape_concat_blank lines hblank]
        exact ih hstring
      · refine ⟨?_, Text.endsInEscape_concat_escape lines hescape⟩
        rcases hquote with hq | hstring
        · exact hq
        · exact (ih hstring).1

/-- **Strings end with their line.**  After any lines of a document, the next line leaves a string open
only if it ends with a backslash, unless it is blank and a string is open before it.  A string is open
before it only if the last line that is not blank ends with a backslash, and then it is one that a
double quote ends. -/
theorem string_needs_escape_iff (settings : Settings) (history : List Text) (number : Nat)
    (line : Text) :
    ((∀ q, ((stateAfter settings history).annotate settings.tabSize number line).1.mode =
          .string q → line.getLast? = some '\\') ↔
        ¬ (line.isAllBlank = true ∧ ∃ q, (stateAfter settings history).mode = .string q)) ∧
      ∀ q, (stateAfter settings history).mode = .string q →
        q = '"' ∧ Text.endsInEscape history = true := by
  refine ⟨⟨?_, ?_⟩, fun q opened => escape_of_string opened⟩
  · rintro needs ⟨hblank, q, hstring⟩
    have hkept := LineState.mode_readLine_of_blank settings.tabSize (stateAfter settings history) hblank
    have hescape := needs q (hkept.trans hstring)
    rw [Text.isAllBlank_of_escape hescape] at hblank
    cases hblank
  · intro visible q opened
    rcases LineState.string_readLine opened with ⟨hblank, hstring⟩ | ⟨hescape, -⟩
    · exact absurd ⟨hblank, q, hstring⟩ visible
    · exact hescape

/-- An empty line behind a backslash leaves the string open, although it ends with no backslash. -/
theorem string_open_after_empty :
    ((stateAfter {} ["\"a\\".toList]).annotate 4 2 []).1.mode = .string '"' ∧
      List.getLast? ([] : Text) ≠ some '\\' := by
  decide +kernel

end Document

end BlockLayout
