import BlockLayout.Blocks.Basic
import BlockLayout.Text.Column
import BlockLayout.Token.Lexeme

/-! # Documents line by line

A document is read line by line, and reading carries a state from one line to the next.  From it every
line is annotated with what can be seen on it, or laid out at the column at which it belongs. -/

namespace BlockLayout

/-! ## Settings

The two settings that reading and layout depend on, with their defaults.  Settings are valid when
both are at least one; `Settings.validate` reports the indent unit first. -/

/-- The settings that reading and layout depend on. -/
structure Settings where
  /-- The columns between a block and its body. -/
  indentUnit : Nat := 4
  /-- The columns between two tab stops. -/
  tabSize : Nat := 4
  deriving DecidableEq, Repr

/-- Why settings are not valid. -/
inductive Settings.Defect where
  | indentUnit (value : Nat)
  | tabSize (value : Nat)
  deriving DecidableEq, Repr

/-- A defect in words. -/
def Settings.Defect.message : Settings.Defect → String
  | indentUnit n => s!"Invalid indent_unit {n}: must be at least 1"
  | tabSize n => s!"Invalid tab_size {n}: must be at least 1"

/-- The settings, if both are at least one. -/
def Settings.validate (s : Settings) : Except Settings.Defect Settings :=
  if s.indentUnit = 0 then .error (.indentUnit s.indentUnit)
  else if s.tabSize = 0 then .error (.tabSize s.tabSize)
  else .ok s

theorem Settings.validate_eq_ok_iff {s r : Settings} :
    s.validate = .ok r ↔ r = s ∧ 1 ≤ s.indentUnit ∧ 1 ≤ s.tabSize := by
  unfold Settings.validate
  split
  · simp; omega
  · split
    · simp; omega
    · simp only [Except.ok.injEq]
      constructor
      · rintro rfl; exact ⟨rfl, by omega, by omega⟩
      · rintro ⟨rfl, -⟩; rfl

/-! ## The state between tokens

What reading carries through a document is the mode, the open blocks and the indentation of the
present line.  `LineState.next` reads one token: it measures the line when it stands at its start,
takes a run of blanks as a token of its own, and applies a keyword to the open blocks.  Reading can
take up at any line from the state that the line before left. -/

/-- What is carried from one token, and one line, to the next. -/
structure LineState where
  mode : Mode
  blocks : Blocks
  /-- The indentation of the present line. -/
  indentation : Nat
  deriving DecidableEq, Repr

namespace LineState

/-- The state at the start of a document. -/
def start (settings : Settings) : LineState := ⟨.base, .start settings.indentUnit, 0⟩

/-- The state with the indentation measured, if nothing of the line is behind. -/
def measure (tabSize : Nat) (before : Option Char) (input : Text) (s : LineState) : LineState :=
  if before.isNone then { s with indentation := input.columns tabSize } else s

/-- The state after a token of the given class, which leaves the given mode. -/
def pass (s : LineState) (cls : TokenClass) (mode : Mode) : LineState :=
  match cls.role? with
  | some role => { s with mode := mode, blocks := s.blocks.apply role s.indentation }
  | none => { s with mode := mode }

/-- One token of a line: a run of blanks, or what the mode reads. -/
def next (tabSize : Nat) (s : LineState) (before : Option Char) (input : Text) :
    Reading LineState :=
  let s := s.measure tabSize before input
  match input.leadingBlanks with
  | [] =>
    let reading := s.mode.read before input
    ⟨reading.cls, reading.length, s.pass reading.cls reading.state⟩
  | blanks => ⟨.plain, blanks.length, s⟩

/-- The lexemes of a line and the state that it leaves. -/
def readLine (tabSize : Nat) (s : LineState) (line : Text) : List Lexeme × LineState :=
  cutLine (next tabSize) s none line

/-- The keywords among the lexemes of a line, each with the indentation of the line. -/
def keywords (indentation : Nat) (lexemes : List Lexeme) : List (KeywordRole × Nat) :=
  lexemes.filterMap fun l => l.cls.role?.map fun role => (role, indentation)

/-- The block events of reading lexemes of a line of the given indentation. -/
def events (s : LineState) (indentation : Nat) (lexemes : List Lexeme) : List BlockEvent :=
  s.blocks.eventsOf (keywords indentation lexemes)

/-- The column at which the next line belongs if it has the given content. -/
def columnFor (settings : Settings) (s : LineState) (content : Text) : Nat :=
  s.blocks.columnFor settings.indentUnit content

end LineState

/-! ## Annotated lines

The annotation of a line says what can be seen on it: its spans, its indentation, and the depth and
the mode after it.  `Document.annotate` annotates every line of a source, each from the state that
the line before left. -/

/-- What can be seen on a line. -/
structure AnnotatedLine where
  /-- The number of the line, the first being one. -/
  number : Nat
  indentation : Nat
  /-- The open blocks after the line, with the document as one of them. -/
  depth : Nat
  /-- The mode after the line. -/
  mode : Mode
  spans : List Span
  deriving DecidableEq, Repr

/-- The keywords on the line, each with the line's indentation. -/
def AnnotatedLine.keywords (line : AnnotatedLine) : List (KeywordRole × Nat) :=
  line.spans.filterMap fun span => span.cls.role?.map fun role => (role, line.indentation)

/-- The annotation of a line and the state that it leaves. -/
def LineState.annotate (tabSize : Nat) (s : LineState) (number : Nat) (line : Text) :
    AnnotatedLine × LineState :=
  let (lexemes, s) := s.readLine tabSize line
  (⟨number, line.columns tabSize, s.blocks.height, s.mode, Span.ofLexemes lexemes⟩, s)

/-- The annotations of lines numbered from `number`, and the state that the last one leaves. -/
def LineState.annotateLines (tabSize : Nat) (s : LineState) (number : Nat) :
    List Text → List AnnotatedLine × LineState
  | [] => ([], s)
  | line :: lines =>
    let (annotated, s) := s.annotate tabSize number line
    let (rest, s) := s.annotateLines tabSize (number + 1) lines
    (annotated :: rest, s)

namespace Document

/-- The annotations of the lines of a source, and the state at its end. -/
def annotate (settings : Settings) (source : Text) : List AnnotatedLine × LineState :=
  (LineState.start settings).annotateLines settings.tabSize 1 source.lines

end Document

/-! ## Layout

Laying a source out gives every line the indentation at which it belongs.  A blank line becomes
empty, and a line that starts inside a block comment or a string stays as it is.  Each line is laid
out from the state that the lines before it leave as they were laid out, so that the indentation
that a block had in the source plays no part. -/

/-- A line as it is laid out after the given state. -/
def LineState.layoutLine (settings : Settings) (s : LineState) (line : Text) : Text :=
  match s.mode, line.trimStart with
  | .base, [] => []
  | .base, content => List.replicate (s.columnFor settings content) ' ' ++ content
  | _, _ => line

/-- Lines as they are laid out one after the other, and the state that the last one leaves. -/
def LineState.layoutLines (settings : Settings) (s : LineState) :
    List Text → List Text × LineState
  | [] => ([], s)
  | line :: lines =>
    let laidOut := s.layoutLine settings line
    let (rest, last) := ((s.readLine settings.tabSize laidOut).2).layoutLines settings lines
    (laidOut :: rest, last)

namespace Document

/-- The lines of a source as they are laid out. -/
def layoutLines (settings : Settings) (source : Text) : List Text :=
  ((LineState.start settings).layoutLines settings source.lines).1

/-- A source as it is laid out; it ends with a line feed if the source does. -/
def layout (settings : Settings) (source : Text) : Text :=
  Text.unlines source.endsLine (layoutLines settings source)

end Document

end BlockLayout
