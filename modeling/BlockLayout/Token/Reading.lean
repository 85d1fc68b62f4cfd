import BlockLayout.Text.Bytes
import BlockLayout.Text.Pattern
import BlockLayout.Token.Class

/-! # Reading one token

`Mode.read` reads one token of a line.  It sees the rest of the line and the one character before
it, and gives the class of the token, its length and the mode after it.  At the end of the line it
takes nothing; elsewhere it takes at least one character. -/

namespace BlockLayout

/-! ## Number literals

A number literal is a run of digits with an optional point and further digits, or a point with
digits after it, and then an optional exponent: a lower-case `e`, an optional sign and digits.  The
digits are those of ASCII.

`Number.pattern` is the pattern of literals, by which a cursor looks for them.  `Number.literal` is the
longest literal that a text starts with; it counts as a number only where no word character follows. -/

namespace Number

/-! ### The pattern -/

/-- At least one digit. -/
def integerPattern : Pattern := .andThen (.one Char.isDigit) (.many Char.isDigit)

/-- An optional point, and any digits. -/
def decimalsPattern : Pattern := .andThen (.optional (.single '.')) (.many Char.isDigit)

/-- Digits with an optional point and further digits, or else a point and digits. -/
def mantissaPattern : Pattern :=
  .orElse (.andThen integerPattern decimalsPattern) (.andThen (.single '.') integerPattern)

/-- The sign of an exponent. -/
def isSign (c : Char) : Bool := c == '-' || c == '+'

/-- An optional sign, and digits. -/
def signedPattern : Pattern := .andThen (.optional (.one isSign)) integerPattern

/-- An `e`, an optional sign, and digits. -/
def exponentPattern : Pattern := .andThen (.single 'e') signedPattern

/-- The pattern of number literals. -/
def pattern : Pattern := .andThen mantissaPattern (.optional exponentPattern)

/-! ### The longest literal -/

/-- The run of digits that a text starts with. -/
def digits (t : Text) : Text := t.takeWhile Char.isDigit

/-- The digits and the point that a number starts with; empty if there is no digit. -/
def mantissa (t : Text) : Text :=
  match digits t, t.dropWhile Char.isDigit with
  | [], '.' :: t' => if digits t' = [] then [] else '.' :: digits t'
  | [], _ => []
  | ds, '.' :: t' => ds ++ '.' :: digits t'
  | ds, _ => ds

/-- The sign that an exponent may have. -/
def sign : Text → Text
  | '+' :: _ => ['+']
  | '-' :: _ => ['-']
  | _ => []

/-- The exponent that a text starts with; empty if there is none. -/
def exponent : Text → Text
  | 'e' :: t =>
    let s := sign t
    match digits (t.drop s.length) with
    | [] => []
    | ds => 'e' :: (s ++ ds)
  | _ => []

/-- The longest number literal that a text starts with; empty if there is none. -/
def literal (t : Text) : Text :=
  match mantissa t with
  | [] => []
  | m => m ++ exponent (t.drop m.length)

/-- The length of the number that a text starts with: its longest literal, unless a word character
follows. -/
def length? (t : Text) : Option Nat :=
  let n := (literal t).length
  if n = 0 || (t.drop n).head?.any isWordChar then none else some n

end Number

/-! ## Reading modes

A block comment or a string may go on over several lines.  The mode says which of them is open
where reading stands.  `commentExtent` and `stringExtent` measure how far such a construct reaches
into a line and give the mode after it.

A block comment ends with its first `*/` and else with no line.  A string ends with its first
quote that no backslash escapes, and at the end of the line unless the line ends in an escape. -/

/-- The construct that reading stands in. -/
inductive Mode where
  /-- Ordinary code. -/
  | base
  /-- A block comment. -/
  | blockComment
  /-- A string that the given quote ends. -/
  | string (quote : Char)
  deriving DecidableEq, Repr

/-- What starts a comment that ends with the line. -/
def lineCommentMark : Text := "//".toList

/-- What starts and what ends a block comment. -/
def blockCommentMarks : Text × Text := ("/*".toList, "*/".toList)

namespace Mode

/-- The number of characters up to the end of a block comment or of the line, and the mode there.
`star` says that the character before was a star of the comment's body. -/
def commentExtent (star : Bool) : Text → Nat × Mode
  | [] => (0, blockComment)
  | c :: t =>
    if star && c == '/' then (1, base)
    else
      let (n, mode) := commentExtent (c == '*') t
      (n + 1, mode)

/-- The number of characters up to the end of a string or of the line, and the mode there.
`escaped` says that a backslash before takes its meaning from the next character. -/
def stringExtent (quote : Char) (escaped : Bool) : Text → Nat × Mode
  | [] => (0, if escaped then string quote else base)
  | c :: t =>
    if !escaped && c == quote then (1, base)
    else
      let (n, mode) := stringExtent quote (!escaped && c == '\\') t
      (n + 1, mode)

theorem commentExtent_le (star : Bool) (t : Text) : (commentExtent star t).1 ≤ t.length := by
  induction t generalizing star with
  | nil => simp [commentExtent]
  | cons c t ih =>
    have := ih (c == '*')
    by_cases h : (star && c == '/') = true
    · simp [commentExtent, h]
    · simp [commentExtent, h]; omega

theorem stringExtent_le (quote : Char) (escaped : Bool) (t : Text) :
    (stringExtent quote escaped t).1 ≤ t.length := by
  induction t generalizing escaped with
  | nil => simp [stringExtent]
  | cons c t ih =>
    have := ih (!escaped && c == '\\')
    by_cases h : (!escaped && c == quote) = true
    · simp [stringExtent, h]
    · simp [stringExtent, h]; omega

end Mode

/-! ## One token -/

/-- One step of reading: the class of the token, its length in characters, the state after it. -/
structure Reading (σ : Type) where
  cls : TokenClass
  length : Nat
  state : σ
  deriving DecidableEq, Repr

namespace Mode

/-- The marks that structure code without a style. -/
def isPunctuation (c : Char) : Bool := c ∈ ['.', ',', ':', '(', ')']

/-- The characters that join into one operator. -/
def isOperatorChar (c : Char) : Bool := c ∈ ['+', '-', '*', '<', '>', '=']

/-- The comparison that is written with a word in front. -/
def notEqual : Text := "not=".toList

/-- The character before belongs to a word. -/
def isAfterWord (before : Option Char) : Bool := before.any isWordChar

/-- A reserved word may start here: at the start of the line, after a space, a tab or an opening
parenthesis. -/
def opensWord (before : Option Char) : Bool := before.all fun c => c ∈ [' ', '\t', '(']

/-- A block comment from its first character not read yet, `opened` characters after its start. -/
def readComment (opened : Nat) (input : Text) : Reading Mode :=
  let (n, mode) := commentExtent false input
  ⟨.comment, opened + n, mode⟩

/-- A string from its first character not read yet, `opened` characters after its start. -/
def readString (quote : Char) (opened : Nat) (input : Text) : Reading Mode :=
  let (n, mode) := stringExtent quote false input
  ⟨.string, opened + n, mode⟩

/-- The number, reserved word or operator word that the input starts with, as far as the character
before allows one. -/
def readWord? (before : Option Char) (input : Text) : Option (Reading Mode) :=
  if !isAfterWord before && notEqual.isPrefixOf input then
    some ⟨.operator, notEqual.length, .base⟩
  else if opensWord before then
    (Word.leading? input).map fun (word, cls) => ⟨cls, word.length, .base⟩
  else
    none

/-- The number that the input starts with, unless it goes on a word. -/
def readNumber? (before : Option Char) (input : Text) : Option (Reading Mode) :=
  if isAfterWord before then none
  else (Number.length? input).map fun n => ⟨.number, n, .base⟩

/-- One token of ordinary code. -/
def readBase (before : Option Char) : Text → Reading Mode
  | [] => ⟨.plain, 0, .base⟩
  | '"' :: t => readString '"' 1 t
  | '/' :: '*' :: t => readComment 2 t
  | '/' :: '/' :: t => ⟨.comment, t.length + 2, .base⟩
  | '/' :: _ => ⟨.operator, 1, .base⟩
  | c :: t =>
    if isOperatorChar c then ⟨.operator, 1 + (t.takeWhile isOperatorChar).length, .base⟩
    else
      match (readNumber? before (c :: t)).or (readWord? before (c :: t)) with
      | some reading => reading
      | none => ⟨if isPunctuation c then .punctuation c else .plain, 1, .base⟩

/-- One token of a line in any mode. -/
def read (mode : Mode) (before : Option Char) (input : Text) : Reading Mode :=
  match mode with
  | base => readBase before input
  | blockComment => readComment 0 input
  | string quote => readString quote 0 input

end Mode

end BlockLayout
