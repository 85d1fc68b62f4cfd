import BlockLayout.Cursor.Scan

/-! # Actions on a cursor

The steps that a host can take with a cursor and a mode, as data: `Action.perform` carries one out
and gives what it answers, or the fault that kept it from answering, with the cursor and the mode
after it. -/

namespace BlockLayout.Cursor

/-- A step that a host can take. -/
inductive Action where
  | peek
  | next
  | takeIf (accepts : Char → Bool)
  | takeChar (char : Char)
  | takeWhile (accepts : Char → Bool)
  | skipToEnd
  | advance (bytes : Nat)
  | backUp (count : Nat)
  | beginToken
  | moveTo (offset : Nat)
  | mark (offset : Nat)
  | takeText (text : Text)
  | takeMatch (recognise : Text → Nat)
  | isAtStart
  | isAtEnd
  | rest
  | current
  | line
  | beforeToken
  | indentation
  | tabSize
  | read

/-- What a step answers. -/
inductive Answer where
  | nothing
  | flag (value : Bool)
  | char (value : Option Char)
  | text (value : Text)
  | number (value : Nat)
  | token (cls : TokenClass)
  deriving DecidableEq, Repr

/-- An answer with the cursor left where it is. -/
def Answer.keep {α : Type} (c : Cursor) (mode : Mode) (wrap : α → Answer)
    (result : Except Fault α) : Except Fault Answer × Cursor × Mode :=
  (wrap <$> result, c, mode)

/-- An answer with the cursor moved, unless there is a fault. -/
def Answer.move {α : Type} (c : Cursor) (mode : Mode) (wrap : α → Answer)
    (result : Except Fault (α × Cursor)) : Except Fault Answer × Cursor × Mode :=
  match result with
  | .ok (value, moved) => (.ok (wrap value), moved, mode)
  | .error fault => (.error fault, c, mode)

/-- Carries a step out. -/
def Action.perform (c : Cursor) (mode : Mode) : Action → Except Fault Answer × Cursor × Mode
  | peek => Answer.keep c mode .char c.peek
  | next => Answer.move c mode .char c.next
  | takeIf accepts => Answer.move c mode .char (c.takeIf accepts)
  | takeChar char => Answer.move c mode (fun found => .flag found.isSome) (c.takeIf (· == char))
  | takeWhile accepts => Answer.move c mode (fun run => .flag !run.isEmpty) (c.takeWhile accepts)
  | skipToEnd => (.ok .nothing, c.skipToEnd, mode)
  | advance bytes => (.ok .nothing, c.advance bytes, mode)
  | backUp count => Answer.move c mode (fun _ => .nothing) (c.backUp count |>.map fun c => ((), c))
  | beginToken => (.ok .nothing, c.beginToken, mode)
  | moveTo offset => (.ok .nothing, c.moveTo offset, mode)
  | mark offset => (.ok .nothing, c.mark offset, mode)
  | takeText text => Answer.move c mode .flag (c.takeText text)
  | takeMatch recognise => Answer.move c mode .flag (c.takeMatch recognise)
  | isAtStart => (.ok (.flag c.isAtStart), c, mode)
  | isAtEnd => (.ok (.flag c.isAtEnd), c, mode)
  | rest => Answer.keep c mode .text c.rest
  | current => Answer.keep c mode .text c.current
  | line => (.ok (.text c.line), c, mode)
  | beforeToken => Answer.keep c mode .char c.beforeToken
  | indentation => (.ok (.number c.indentation), c, mode)
  | tabSize => (.ok (.number c.tabSize), c, mode)
  | read =>
    let (result, moved, mode) := c.readMode mode
    (Answer.token <$> result, moved, mode)

end BlockLayout.Cursor
