import BlockLayout.Text.Bytes

/-! # Patterns

A pattern is anchored at the start of a text, of which it may match several starts.  Which of them a
search finds is told by the order in which it tries them, leftmost first: the first alternative before
the second, an optional part before its absence, and a longer run before a shorter one.  The match need
not be the longest: of `a` or else `ab`, the search finds `a` in `ab`.

A class of characters is given by its test; blanks are those with the property `White_Space` of
Unicode (`Text.isBlank`).  `atEnd` matches no characters, and only at the end of the text; a line feed
there is a character like any other. -/

namespace BlockLayout

/-- Patterns over characters. -/
inductive Pattern
  /-- One character of a class. -/
  | one (accepts : Char → Bool)
  /-- A text itself. -/
  | text (t : Text)
  /-- A run of characters of a class, the longest first; it may be empty. -/
  | many (accepts : Char → Bool)
  /-- The pattern, or else nothing. -/
  | optional (p : Pattern)
  /-- The first pattern and the second behind it. -/
  | andThen (p q : Pattern)
  /-- The first pattern, or else the second. -/
  | orElse (p q : Pattern)
  /-- Nothing, at the end of the text. -/
  | atEnd

namespace Pattern

variable {α : Type}

/-- The character itself. -/
def single (c : Char) : Pattern := .one (· == c)

/-- The first of some texts that stands there. -/
def oneOf : List Text → Pattern
  | [] => .one fun _ => false
  | [t] => .text t
  | t :: ts => .orElse (.text t) (oneOf ts)

/-- Tries the runs of a class that a text starts with, the longest first. -/
def findRun (accepts : Char → Bool) (goOn : Text → Option α) : Text → Option α
  | [] => goOn []
  | c :: t => (if accepts c then findRun accepts (fun run => goOn (c :: run)) t else none).or (goOn [])

/-- Tries the matches of a pattern one after the other until one can go on. -/
def find? (goOn : Text → Option α) : Pattern → Text → Option α
  | one accepts, c :: _ => if accepts c then goOn [c] else none
  | one _, [] => none
  | text s, t => if s.isPrefixOf t then goOn s else none
  | many accepts, t => findRun accepts goOn t
  | optional p, t => (p.find? goOn t).or (goOn [])
  | andThen p q, t => p.find? (fun u => q.find? (fun v => goOn (u ++ v)) (t.drop u.length)) t
  | orElse p q, t => (p.find? goOn t).or (q.find? goOn t)
  | atEnd, t => if t.isEmpty then goOn [] else none

/-- The match that the search comes to first. -/
def first? (p : Pattern) (t : Text) : Option Text := p.find? some t

/-- Where the match starts and ends, as byte offsets. -/
def search (p : Pattern) (t : Text) : Option (Nat × Nat) :=
  (p.first? t).map fun found => (0, found.byteLength)

end Pattern

end BlockLayout
