import BlockLayout.Text.Bytes
import BlockLayout.Token.Reading

/-! # Lexemes and spans of a line

A lexeme is the text of a token with its class.  `cutLine` cuts a line into lexemes by repeating a
step of reading until the line is used up; `Mode.lexemes` does so with every token that `Mode.read`
gives, and `Mode.visibleLexemes` passes over blanks before each token. -/

namespace BlockLayout

/-- The text of a token and its class. -/
structure Lexeme where
  cls : TokenClass
  text : Text
  deriving DecidableEq, Repr

/-- The lexemes that repeating `step` cuts the input into, and the state at its end.  The input
follows the character `before`.  A step that takes nothing ends the cutting. -/
def cutLine {σ : Type} (step : σ → Option Char → Text → Reading σ) (state : σ)
    (before : Option Char) : Text → List Lexeme × σ
  | [] => ([], state)
  | c :: t =>
    match step state before (c :: t) with
    | ⟨_, 0, next⟩ => ([], next)
    | ⟨cls, n + 1, next⟩ =>
      let text := c :: t.take n
      let (lexemes, last) := cutLine step next text.getLast? (t.drop n)
      (⟨cls, text⟩ :: lexemes, last)
termination_by input => input.length
decreasing_by simp only [List.length_drop, List.length_cons]; omega

namespace Mode

/-- The lexemes of a line, blanks of ordinary code taken one by one. -/
def lexemes (mode : Mode) (line : Text) : List Lexeme × Mode := cutLine read mode none line

/-- The lexemes of the input with blanks passed over before each, and the mode at its end. -/
def visibleFrom (mode : Mode) (before : Option Char) : Text → List Lexeme × Mode
  | [] => ([], mode)
  | c :: t =>
    if Text.isBlank c then visibleFrom mode (some c) t
    else
      match read mode before (c :: t) with
      | ⟨_, 0, next⟩ => ([], next)
      | ⟨cls, n + 1, next⟩ =>
        let text := c :: t.take n
        let (lexemes, last) := visibleFrom next text.getLast? (t.drop n)
        (⟨cls, text⟩ :: lexemes, last)
termination_by input => input.length
decreasing_by
  · simp
  · simp only [List.length_drop, List.length_cons]; omega

/-- The lexemes of a line that can be seen, and the mode at its end. -/
def visibleLexemes (mode : Mode) (line : Text) : List Lexeme × Mode := visibleFrom mode none line

end Mode

/-! ## Spans

A span is a visible piece of a line: a token that is not blank, or a run of plain tokens that touch,
so that an identifier comes out whole.  `Span.ofLexemes` gives the spans of a line. -/

/-- A visible piece of a line, with the byte offsets of its start and of its end. -/
structure Span where
  start : Nat
  stop : Nat
  text : Text
  cls : TokenClass
  deriving DecidableEq, Repr

namespace Span

/-- Lexemes as spans, the first of them at the given offset. -/
def place (offset : Nat) : List Lexeme → List Span
  | [] => []
  | l :: ls => ⟨offset, offset + l.text.byteLength, l.text, l.cls⟩ ::
      place (offset + l.text.byteLength) ls

/-- Both spans are plain and the second starts where the first ends. -/
def joins (s t : Span) : Bool := s.stop == t.start && s.cls == .plain && t.cls == .plain

/-- A span in front of others, joined to the first of them if it can be. -/
def consJoined (s : Span) : List Span → List Span
  | [] => [s]
  | t :: ts => if s.joins t then ⟨s.start, t.stop, s.text ++ t.text, .plain⟩ :: ts else s :: t :: ts

/-- The spans of a line that was cut into the given lexemes. -/
def ofLexemes (lexemes : List Lexeme) : List Span :=
  ((place 0 lexemes).filter fun s => !s.text.isAllBlank).foldr consJoined []

end Span

end BlockLayout
