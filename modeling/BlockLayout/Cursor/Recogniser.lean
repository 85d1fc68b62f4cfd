import BlockLayout.Text.Bytes
import BlockLayout.Text.Column

/-! # Cursors

A cursor stands at a byte offset of one line and remembers where the present token started.  It is
what a host holds that reads a line step by step.  A step that looks at the text fails when the
cursor stands inside a character; `Cursor.moveTo`, `Cursor.mark` and `Cursor.advance` are the only
steps that can bring it there. -/

namespace BlockLayout

/-- A position in a line and the start of the present token, both as byte offsets. -/
structure Cursor where
  line : Text
  position : Nat := 0
  start : Nat := 0
  /-- The columns between two tab stops. -/
  tabSize : Nat := 4
  deriving DecidableEq, Repr

namespace Cursor

/-- Why text at the cursor cannot be had. -/
inductive Fault where
  /-- An offset falls inside a character. -/
  | insideCharacter
  /-- The present token starts behind the cursor. -/
  | startPastPosition
  deriving DecidableEq, Repr

/-- The length of the line in bytes. -/
def size (c : Cursor) : Nat := c.line.byteLength

/-! ### Moving -/

/-- The cursor at an offset, or at the end of the line if the offset lies beyond. -/
def moveTo (c : Cursor) (offset : Nat) : Cursor := { c with position := min offset c.size }

/-- The present token started at an offset, or at the end of the line if the offset lies beyond. -/
def mark (c : Cursor) (offset : Nat) : Cursor := { c with start := min offset c.size }

/-- A new token starts at the cursor. -/
def beginToken (c : Cursor) : Cursor := c.mark c.position

/-- The cursor some bytes further on, at most at the end of the line. -/
def advance (c : Cursor) (bytes : Nat) : Cursor := c.moveTo (c.position + bytes)

/-- The cursor at the end of the line. -/
def skipToEnd (c : Cursor) : Cursor := c.moveTo c.size

/-- The cursor behind a text that stands at it. -/
def pass (c : Cursor) (text : Text) : Cursor := c.advance text.byteLength

/-! ### Looking -/

/-- The cursor stands at the start of the line. -/
def isAtStart (c : Cursor) : Bool := c.position == 0

/-- The cursor stands at the end of the line. -/
def isAtEnd (c : Cursor) : Bool := c.position ≥ c.size

/-- The indentation of the line. -/
def indentation (c : Cursor) : Nat := c.line.columns c.tabSize

/-- The line before and after an offset. -/
def cut (c : Cursor) (offset : Nat) : Except Fault (Text × Text) :=
  match c.line.cutAt? offset with
  | some parts => .ok parts
  | none => .error .insideCharacter

/-- The line after the cursor. -/
def rest (c : Cursor) : Except Fault Text := return (← c.cut c.position).2

/-- The text of the present token up to the cursor. -/
def current (c : Cursor) : Except Fault Text := do
  if c.position < c.start then throw .startPastPosition
  let (upTo, _) ← c.cut c.position
  let (before, _) ← c.cut c.start
  return upTo.drop before.length

/-- The character at the cursor. -/
def peek (c : Cursor) : Except Fault (Option Char) := return (← c.rest).head?

/-- The character before the present token. -/
def beforeToken (c : Cursor) : Except Fault (Option Char) := return (← c.cut c.start).1.getLast?

/-! ### Taking -/

/-- Takes the characters of a class that stand at the cursor. -/
def takeWhile (c : Cursor) (accepts : Char → Bool) : Except Fault (Text × Cursor) := do
  let run := (← c.rest).takeWhile accepts
  return (run, c.pass run)

/-- Takes the character at the cursor if it is of a class. -/
def takeIf (c : Cursor) (accepts : Char → Bool) : Except Fault (Option Char × Cursor) := do
  match (← c.peek).filter accepts with
  | some char => return (some char, c.pass [char])
  | none => return (none, c)

/-- Takes the character at the cursor. -/
def next (c : Cursor) : Except Fault (Option Char × Cursor) := c.takeIf fun _ => true

theorem size_sub_lt_of_next {c moved : Cursor} {char : Char} (h : c.next = .ok (some char, moved)) :
    moved.size - moved.position < c.size - c.position := by
  unfold next takeIf peek rest cut at h
  cases hcut : c.line.cutAt? c.position with
  | none =>
      rw [hcut] at h
      cases h
  | some parts =>
      obtain ⟨before, after⟩ := parts
      obtain ⟨hline, hposition⟩ := Text.eq_append_of_cutAt? hcut
      rw [hcut] at h
      cases after with
      | nil => cases h
      | cons d t =>
          cases h
          have hsize : c.size = c.position + (char.utf8Size + Text.byteLength t) := by
            rw [← Text.byteLength_cons, ← hposition, ← Text.byteLength_append, ← hline, size]
          have hmoved : (c.pass [char]).position = min (c.position + char.utf8Size) c.size := by
            simp only [pass, advance, moveTo, Text.byteLength_cons, Text.byteLength_nil, Nat.add_zero]
          have hchar := char.utf8Size_pos
          change c.size - (c.pass [char]).position < c.size - c.position
          omega

/-- Takes characters up to and with the first that `stops`, or all of them.  A flag is carried on from
one character to the next.  Tells whether one stopped, and the flag. -/
def takeThrough (stops update : Bool → Char → Bool) (flag : Bool) (c : Cursor) :
    Except Fault (Bool × Bool) × Cursor :=
  match _found : c.next with
  | .error fault => (.error fault, c)
  | .ok (none, moved) => (.ok (false, flag), moved)
  | .ok (some char, moved) =>
    if stops flag char then (.ok (true, flag), moved)
    else takeThrough stops update (update flag char) moved
termination_by c.size - c.position
decreasing_by exact size_sub_lt_of_next ‹_›

/-- Takes a text that stands at the cursor; tells whether it does. -/
def takeText (c : Cursor) (text : Text) : Except Fault (Bool × Cursor) := do
  if text.isPrefixOf (← c.rest) then return (true, c.pass text) else return (false, c)

/-- Goes some characters back, at most to the start of the line. -/
def backUp (c : Cursor) (count : Nat) : Except Fault Cursor := do
  if count = 0 then return c
  let (before, _) ← c.cut c.position
  return c.moveTo (Text.byteLength (before.take (before.length - count)))

end Cursor

/-! ## Matches at a cursor

A recogniser gives the number of characters of its match at the start of a text; no characters is no
match.  A search reports where its first match starts and ends, as byte offsets, and the match counts
only if it starts at the cursor. -/

namespace Recogniser

/-- The longest run of characters of a class. -/
def run (accepts : Char → Bool) (t : Text) : Nat := (t.takeWhile accepts).length

/-- Everything up to the last of a character before the first line feed. -/
def throughLast (c : Char) (t : Text) : Nat :=
  ((t.takeWhile (· != '\n')).reverse.dropWhile (· != c)).length

end Recogniser

namespace Cursor

/-- Takes as many characters as `recognise` finds at the start of the rest of the line; tells
whether there were any. -/
def takeMatch (c : Cursor) (recognise : Text → Nat) : Except Fault (Bool × Cursor) := do
  let after ← c.rest
  let text := after.take (recognise after)
  return (!text.isEmpty, c.pass text)

/-- A search for a pattern: where its first match starts and ends. -/
abbrev Search := Text → Option (Nat × Nat)

/-- Passes over the bytes of a match that starts at the cursor and is not empty; tells whether there is
one. -/
def takeFound (c : Cursor) (find : Search) : Except Fault (Bool × Cursor) := do
  match find (← c.rest) with
  | some (0, last + 1) => return (true, c.advance (last + 1))
  | _ => return (false, c)

end Cursor

end BlockLayout
