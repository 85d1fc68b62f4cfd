import BlockLayout.Bits64
import BlockLayout.Token.Class

/-! # Open blocks

`Blocks` records, for every block that is open, the indentation of the line that opened it.  A
keyword changes the open blocks by `apply`: an opener puts a block on top, a closer takes the top
one away, a divider puts a new block in place of the top one.  Without an open block a closer and a
divider do nothing.

`columnFor` is the column at which a line belongs: one unit deeper than the opener of the innermost
block, or level with it if the line starts with one of the closing words.  The document itself
counts as a block one unit left of the margin, so that its lines belong at the margin.

Columns are kept as numbers of 64 bits with a sign. -/

namespace BlockLayout

/-- The column of the document and the columns of the open blocks, the innermost first. -/
structure Blocks where
  root : Int
  opened : List Int
  deriving DecidableEq, Repr

namespace Blocks

open Bits64

/-- No open block, in a document whose blocks are `unit` columns apart. -/
def start (unit : Nat) : Blocks := ⟨signed (-signed unit), []⟩

/-- The number of open blocks, with the document as one of them. -/
def height (b : Blocks) : Nat := b.opened.length + 1

/-- No block is open. -/
def isRoot (b : Blocks) : Bool := b.opened.isEmpty

/-- The column of the innermost block, or of the document. -/
def top (b : Blocks) : Int := b.opened.head?.getD b.root

/-- The columns of the document and of the open blocks, from the outermost to the innermost. -/
def columns (b : Blocks) : List Int := b.root :: b.opened.reverse

/-- The effect of a keyword on a line of the given indentation. -/
def apply (b : Blocks) (role : KeywordRole) (indentation : Nat) : Blocks :=
  match role, b.opened with
  | .opener, outer => { b with opened := signed indentation :: outer }
  | .closer, _ :: outer => { b with opened := outer }
  | .divider, _ :: outer => { b with opened := signed indentation :: outer }
  | _, _ => b

/-- The effect of keywords one after the other, each with the indentation of its line. -/
def applyAll (b : Blocks) (keywords : List (KeywordRole × Nat)) : Blocks :=
  keywords.foldl (fun b (role, indentation) => b.apply role indentation) b

/-- The first word of the text lines up with the opener of the innermost block. -/
def startsWithCloser (content : Text) : Bool :=
  Word.closers.contains (Word.leading content.trimStart)

/-- The column at which a line of the given content belongs. -/
def columnFor (b : Blocks) (unit : Nat) (content : Text) : Nat :=
  if !b.isRoot && startsWithCloser content then b.top.toNat
  else (signed (b.top + signed unit)).toNat

@[simp] theorem root_apply (b : Blocks) (role : KeywordRole) (indentation : Nat) :
    (b.apply role indentation).root = b.root := by
  unfold apply
  split <;> rfl

@[simp] theorem apply_neutral (b : Blocks) (indentation : Nat) :
    b.apply .neutral indentation = b := by
  simp [apply]

@[simp] theorem applyAll_nil (b : Blocks) : b.applyAll [] = b := rfl

@[simp] theorem applyAll_cons (b : Blocks) (k : KeywordRole × Nat) (ks : List (KeywordRole × Nat)) :
    b.applyAll (k :: ks) = (b.apply k.1 k.2).applyAll ks := rfl

@[simp] theorem applyAll_append (b : Blocks) (ks ls : List (KeywordRole × Nat)) :
    b.applyAll (ks ++ ls) = (b.applyAll ks).applyAll ls := by
  simp [applyAll]

@[simp] theorem root_applyAll (b : Blocks) (ks : List (KeywordRole × Nat)) :
    (b.applyAll ks).root = b.root := by
  induction ks generalizing b with
  | nil => rfl
  | cons k ks ih => rw [applyAll_cons, ih, root_apply]

end Blocks

/-! ## Block events

What happens to the open blocks when a keyword is applied: a block is opened, closed, or replaced by
a sibling.  `Blocks.events` lists the events of one keyword and `Blocks.eventsOf` those of a
sequence; an event names the indentation as it was counted, or the column that was recorded. -/

/-- A change of the open blocks. -/
inductive BlockEvent where
  /-- A block was opened on a line of this indentation. -/
  | opened (indentation : Nat)
  /-- The block of this column was closed. -/
  | closed (column : Int)
  /-- The block of this column gave way to a sibling. -/
  | replaced (column : Int)
  deriving DecidableEq, Repr

/-- An event in words. -/
def BlockEvent.message : BlockEvent → String
  | opened n => s!"indent: opened block at {n}"
  | closed n => s!"dedent: closed block opened at {n}"
  | replaced n => s!"redent: replaced block opened at {n}"

namespace Blocks

/-- The events of a keyword. -/
def events (b : Blocks) (role : KeywordRole) (indentation : Nat) : List BlockEvent :=
  match role, b.opened with
  | .opener, _ => [.opened indentation]
  | .closer, column :: _ => [.closed column]
  | .divider, column :: _ => [.replaced column, .opened indentation]
  | _, _ => []

/-- The events of keywords one after the other. -/
def eventsOf (b : Blocks) : List (KeywordRole × Nat) → List BlockEvent
  | [] => []
  | (role, indentation) :: ks =>
    b.events role indentation ++ (b.apply role indentation).eventsOf ks

end Blocks

end BlockLayout
