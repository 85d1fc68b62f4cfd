import BlockLayout.Text.Bytes

/-! # Reading documents of settings

A reader takes a value off the front of a text or fails; what a failed reader took is given back
when another is tried in its place.  `many` repeats a reader for as long as it succeeds. -/

namespace BlockLayout.Toml

/-- Takes a value off the front of a text, or fails. -/
abbrev Reader := StateT Text Option

namespace Reader

variable {α β : Type}

/-- The next character, which is left in place. -/
def peek : Reader (Option Char) := return (← get).head?

/-- One character of a class. -/
def satisfying (p : Char → Bool) : Reader Char := do
  match ← get with
  | c :: t => if p c then set t; return c else failure
  | [] => failure

/-- The given character. -/
def char (c : Char) : Reader Unit := do
  let _ ← satisfying (· == c)

/-- The given text. -/
def exactly (expected : Text) : Reader Unit := do
  let t ← get
  if expected.isPrefixOf t then set (t.drop expected.length) else failure

/-- The longest run of characters of a class, maybe empty. -/
def run (p : Char → Bool) : Reader Text := do
  let t ← get
  set (t.dropWhile p)
  return t.takeWhile p

/-- The longest run of characters of a class, not empty. -/
def someRun (p : Char → Bool) : Reader Text := do
  let t ← run p
  if t.isEmpty then failure else return t

/-- The given number of characters of a class. -/
def exactRun (p : Char → Bool) (count : Nat) : Reader Text := do
  let t := (← get).take count
  if t.length = count && t.all p then set ((← get).drop count); return t else failure

/-- The end of the text. -/
def finish : Reader Unit := do
  if (← get).isEmpty then return else failure

/-- The given value in place of what is read. -/
def as (item : Reader α) (value : β) : Reader β := do
  let _ ← item
  return value

/-- A value if it can be read. -/
def maybe (item : Reader α) : Reader (Option α) := some <$> item <|> pure none

/-- Values for as long as they can be read, at most the given number. -/
def upTo (item : Reader α) : Nat → Reader (List α)
  | 0 => pure []
  | n + 1 => do
    match ← maybe item with
    | some a => return a :: (← upTo item n)
    | none => return []

/-- Values for as long as they can be read, each of which takes something. -/
def many (item : Reader α) : Reader (List α) := do upTo item (← get).length

/-- One or more values with a separator between them. -/
def separated (item : Reader α) (separator : Reader β) : Reader (List α) := do
  let first ← item
  let others ← many (separator *> item)
  return first :: others

end Reader

/-! ## Blanks, line ends and comments

Blanks within a line are spaces and tabs.  A line ends with a line feed, maybe after a carriage
return; a carriage return by itself is refused.  A comment runs up to the end of its line and holds
no control character but the tab. -/

open Reader

/-- A space or a tab. -/
def isSpace (c : Char) : Bool := c == ' ' || c == '\t'

/-- No control character of ASCII but the tab. -/
def isPrintable (c : Char) : Bool := c == '\t' || (c.toNat ≥ 0x20 && c.toNat != 0x7F)

/-- Spaces and tabs. -/
def spaces : Reader Unit := do
  let _ ← run isSpace

/-- The end of a line. -/
def lineEnd : Reader Unit := exactly ['\n'] <|> exactly ['\r', '\n']

/-- A comment, without the end of its line. -/
def comment : Reader Unit := do
  char '#'
  let _ ← run isPrintable

/-- Spaces, line ends, and comments that a line end follows. -/
def gap : Reader Unit := do
  let _ ← many ((someRun isSpace).as () <|> lineEnd <|> (comment *> lineEnd))

/-- What may stand between a statement and the next line, or the end of the text. -/
def statementEnd : Reader Unit := do
  spaces
  let _ ← maybe comment
  lineEnd <|> finish

/-! ## Quoted texts and keys

A basic text stands between double quotes and knows escapes; a literal text stands between single
quotes and holds its characters as they are.  Three quotes at either end let a text go over several
lines; then a line end directly after the opening quotes is left out, every other line end becomes
one line feed, and up to two quotes may stand before the closing ones. -/

/-- The value of a digit in any base up to sixteen. -/
def digitValue (c : Char) : Nat :=
  if c.isDigit then c.toNat - '0'.toNat
  else if 'a' ≤ c && c ≤ 'f' then c.toNat - 'a'.toNat + 10
  else c.toNat - 'A'.toNat + 10

/-- A digit of base sixteen. -/
def isHexDigit (c : Char) : Bool := c.isDigit || ('a' ≤ c && c ≤ 'f') || ('A' ≤ c && c ≤ 'F')

/-- The number that digits of a base write. -/
def digitsValue (base : Nat) (digits : Text) : Nat :=
  digits.foldl (fun n c => base * n + digitValue c) 0

/-- The character of a code point, given by so many digits of base sixteen. -/
def codePoint (digits : Nat) : Reader Char := do
  let n := digitsValue 16 (← exactRun isHexDigit digits)
  if n.isValidChar then return Char.ofNat n else failure

/-- An escape: a backslash and what names the character. -/
def escape : Reader Char := do
  char '\\'
  match ← satisfying fun _ => true with
  | 'b' => return '\x08'
  | 't' => return '\t'
  | 'n' => return '\n'
  | 'f' => return '\x0c'
  | 'r' => return '\r'
  | '"' => return '"'
  | '\\' => return '\\'
  | 'u' => codePoint 4
  | 'U' => codePoint 8
  | _ => failure

/-- A character that a basic text holds as it is. -/
def isBasicChar (c : Char) : Bool := isPrintable c && c != '"' && c != '\\'

/-- A character that a literal text holds as it is. -/
def isLiteralChar (c : Char) : Bool := isPrintable c && c != '\''

/-- A backslash at the end of a line, with all blanks up to the next character. -/
def continuation : Reader Unit := do
  char '\\'
  spaces
  lineEnd
  let _ ← many ((someRun isSpace).as () <|> lineEnd)

/-- One or two quotes that do not close a text of several lines. -/
def innerQuotes (quote : Char) : Reader Text := do
  let quotes ← someRun (· == quote)
  if quotes.length ≤ 2 then return quotes else failure

/-- The quotes that close a text of several lines, and those before them that belong to it. -/
def closingQuotes (quote : Char) : Reader Text := do
  let quotes ← run (· == quote)
  if 3 ≤ quotes.length && quotes.length ≤ 5 then return quotes.drop 3 else failure

/-- A text between three quotes on either side, made of pieces. -/
def multiline (quote : Char) (piece : Reader Text) : Reader Text := do
  exactly [quote, quote, quote]
  let _ ← maybe lineEnd
  let pieces ← many (piece <|> lineEnd.as ['\n'] <|> innerQuotes quote)
  return pieces.flatten ++ (← closingQuotes quote)

/-- A basic text on one line. -/
def basic : Reader Text := do
  char '"'
  let t ← many (satisfying isBasicChar <|> escape)
  char '"'
  return t

/-- A literal text on one line. -/
def literal : Reader Text := do
  char '\''
  let t ← run isLiteralChar
  char '\''
  return t

/-- A quoted text of any kind. -/
def quoted : Reader Text :=
  multiline '"' (someRun isBasicChar <|> continuation.as [] <|> (fun c => [c]) <$> escape)
    <|> multiline '\'' (someRun isLiteralChar)
    <|> basic
    <|> literal

/-- A character of a key without quotes. -/
def isKeyChar (c : Char) : Bool := c.isAlphanum || c == '_' || c == '-'

/-- One part of a key. -/
def keyPart : Reader Text := someRun isKeyChar <|> basic <|> literal

/-- The limit below which the parts of a key, and arrays and inline tables inside each other, must
stay. -/
def depthLimit : Nat := 80

/-- A key: parts with points between them and spaces around each. -/
def key : Reader (List Text) := do
  let parts ← separated (spaces *> keyPart <* spaces) (char '.')
  if parts.length < depthLimit then return parts else failure

end BlockLayout.Toml
