import BlockLayout.Cursor.Recogniser
import BlockLayout.Document.State

/-! # Reading at a cursor

`Cursor.readMode` reads one token with the steps of a cursor.  In ordinary code it takes one character,
which decides what is tried: the cursor goes on, or back over the character for a word or a number, and
back again where a number is refused.  A step that cannot be taken stops the reading where it is.
`Cursor.readToken` reads one token of a document.

Behind a character boundary this is the reading that `Mode.read` gives of the text alone. -/

namespace BlockLayout

/-- Reading steps: each answers or is stopped by a fault, and leaves a cursor and a mode. -/
abbrev Scan := ExceptT Cursor.Fault (StateM (Cursor × Mode))

namespace Scan

variable {α : Type}

/-! ### Steps -/

/-- Looks at the line. -/
def look (f : Cursor → Except Cursor.Fault α) : Scan α := do
  let (c, _) ← get
  MonadExcept.ofExcept (f c)

/-- Moves the cursor. -/
def move (f : Cursor → Cursor) : Scan Unit := modify fun (c, mode) => (f c, mode)

/-- Moves the cursor by a step that answers. -/
def take (f : Cursor → Except Cursor.Fault (α × Cursor)) : Scan α := do
  let (a, moved) ← look f
  move fun _ => moved
  return a

/-- Goes over into a mode. -/
def enter (mode : Mode) : Scan Unit := modify fun (c, _) => (c, mode)

/-- Takes the character at the cursor. -/
def next : Scan (Option Char) := take Cursor.next

/-- Takes a character if it stands at the cursor; tells whether it does. -/
def takeChar (char : Char) : Scan Bool := Option.isSome <$> take (·.takeIf (· == char))

/-- Goes back over the character before the cursor. -/
def backUp : Scan Unit := take fun c => (c.backUp 1).map fun moved => ((), moved)

/-- Takes characters up to and with the first that `stops`, see `Cursor.takeThrough`. -/
def takeThrough (stops update : Bool → Char → Bool) : Scan (Bool × Bool) := ExceptT.mk do
  let (c, mode) ← get
  let (answer, moved) := c.takeThrough stops update false
  set (moved, mode)
  return answer

/-! ### Comments and strings -/

/-- The rest of a block comment, up to its end or the end of the line. -/
def comment : Scan TokenClass := do
  let (closed, _) ← takeThrough (fun star c => star && c == '/') fun _ c => c == '*'
  if closed then enter .base
  return .comment

/-- The rest of a string, up to the quote that ends it or the end of the line. -/
def string (quote : Char) : Scan TokenClass := do
  let (closed, escaped) ← takeThrough (fun escaped c => !escaped && c == quote)
    fun escaped c => !escaped && c == '\\'
  if closed || !escaped then enter .base
  return .string

/-- What a slash starts. -/
def slash : Scan TokenClass := do
  if ← takeChar '*' then
    enter .blockComment
    comment
  else if ← takeChar '/' then
    move Cursor.skipToEnd
    return .comment
  else
    return .operator

/-! ### Numbers and words -/

/-- Takes a number literal; tells whether there is one and no word character follows it. -/
def takeLiteral : Scan Bool := do
  if ← take (·.takeFound Number.pattern.search) then return !(← look Cursor.peek).any isWordChar
  else return false

/-- Takes a number.  If there is none the cursor is back where it was. -/
def takeNumber : Scan Bool := do
  let (c, _) ← get
  if ← takeLiteral then return true
  else
    move (·.moveTo c.position)
    return false

/-- Takes the rest of a number that starts with the point before the cursor. -/
def takeDecimals : Scan Bool := do
  if (← look Cursor.peek).any Char.isDigit then
    backUp
    if ← takeNumber then return true
    else
      let _ ← next
      return false
  else
    return false

/-- What a punctuation mark starts. -/
def punctuation (before : Option Char) (mark : Char) : Scan TokenClass := do
  if mark = '.' ∧ Mode.isAfterWord before = false then
    if ← takeDecimals then return .number else return .punctuation mark
  else
    return .punctuation mark

/-- Takes the comparison that is written with a word in front. -/
def takeNotEqual (before : Option Char) : Scan Bool :=
  if Mode.isAfterWord before then return false else take (·.takeText Mode.notEqual)

/-- Takes a reserved word. -/
def takeReserved (before : Option Char) : Scan (Option TokenClass) := do
  if Mode.opensWord before then
    match Word.leading? (← look Cursor.rest) with
    | some (word, cls) =>
      move (·.advance word.byteLength)
      return some cls
    | none => return none
  else
    return none

/-- Takes a number that starts with a digit. -/
def takeDigits (before : Option Char) (first : Char) : Scan Bool :=
  if first.isDigit && !Mode.isAfterWord before then takeNumber else return false

/-- A word, a number, or one character. -/
def word (before : Option Char) (first : Char) : Scan TokenClass := do
  if ← takeNotEqual before then return .operator
  else
    match ← takeReserved before with
    | some cls => return cls
    | none =>
      if ← takeDigits before first then return .number
      else
        let _ ← next
        return .plain

/-! ### Tokens -/

/-- One token of ordinary code, of which the first character is taken. -/
def afterFirst (first : Char) : Scan TokenClass := do
  if first = '"' then
    enter (.string first)
    string first
  else if first = '/' then slash
  else
    let before ← look Cursor.beforeToken
    if Mode.isPunctuation first then punctuation before first
    else if Mode.isOperatorChar first then
      let _ ← take (·.takeWhile Mode.isOperatorChar)
      return .operator
    else
      backUp
      word before first

/-- One token of ordinary code. -/
def base : Scan TokenClass := do
  match ← next with
  | some first => afterFirst first
  | none => return .plain

/-- One token of a line in any mode. -/
def token (mode : Mode) : Scan TokenClass := do
  move Cursor.beginToken
  match mode with
  | .base => base
  | .blockComment => comment
  | .string quote => string quote

end Scan

namespace Cursor

/-- Reads one token in a mode. -/
def readMode (c : Cursor) (mode : Mode) : Except Fault TokenClass × Cursor × Mode :=
  (Scan.token mode).run.run (c, mode)

/-- Reads one token of a document: a run of blanks, or what the mode reads.  The line is measured where
reading stands at its start. -/
def readToken (c : Cursor) (s : LineState) : Except Fault TokenClass × Cursor × LineState :=
  let c := c.beginToken
  let s := if c.isAtStart then { s with indentation := c.indentation } else s
  match c.takeWhile Text.isBlank with
  | .error fault => (.error fault, c, s)
  | .ok ([], moved) =>
    match moved.readMode s.mode with
    | (.ok cls, moved, mode) => (.ok cls, moved, s.pass cls mode)
    | (.error fault, moved, mode) => (.error fault, moved, { s with mode })
  | .ok (_, moved) => (.ok .plain, moved, s)

end Cursor

end BlockLayout
