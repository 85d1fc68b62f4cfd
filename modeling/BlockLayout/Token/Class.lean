import BlockLayout.Text.Bytes

/-! # Token classes and reserved words

A token is plain text, a punctuation mark, or text with a style.  A keyword also says what it does
to the open blocks.  The three views `style?`, `role?` and `mark?` give each part by itself; by
construction a keyword role comes with the keyword style, and a punctuation mark with no style. -/

namespace BlockLayout

/-- What a keyword does to the open blocks. -/
inductive KeywordRole where
  /-- Opens a block whose body lies one level deeper. -/
  | opener
  /-- Closes the innermost block. -/
  | closer
  /-- Closes the innermost block and opens its sibling. -/
  | divider
  /-- Leaves the blocks alone. -/
  | neutral
  deriving DecidableEq, Repr

/-- The word for a role in listings and messages. -/
def KeywordRole.name : KeywordRole → String
  | opener => "indent"
  | closer => "dedent"
  | divider => "redent"
  | neutral => "plain"

/-- How the text of a token is shown. -/
inductive Style where
  | keyword
  | operator
  | atom
  | type
  | builtin
  | string
  | comment
  | number
  deriving DecidableEq, Repr

/-- The word for a style in listings. -/
def Style.name : Style → String
  | keyword => "keyword"
  | operator => "operator"
  | atom => "atom"
  | type => "type"
  | builtin => "builtin"
  | string => "string"
  | comment => "comment"
  | number => "number"

/-- What the text of a token was read as. -/
inductive TokenClass where
  /-- Blanks, identifiers and all else that has no meaning of its own. -/
  | plain
  /-- A punctuation mark. -/
  | punctuation (mark : Char)
  /-- A keyword. -/
  | keyword (role : KeywordRole)
  | operator
  | atom
  | type
  | builtin
  | string
  | comment
  | number
  deriving DecidableEq, Repr

namespace TokenClass

/-- The style of a class, if it has one. -/
def style? : TokenClass → Option Style
  | plain => none
  | punctuation _ => none
  | keyword _ => some .keyword
  | operator => some .operator
  | atom => some .atom
  | type => some .type
  | builtin => some .builtin
  | string => some .string
  | comment => some .comment
  | number => some .number

/-- The role of a keyword. -/
def role? : TokenClass → Option KeywordRole
  | keyword role => some role
  | _ => none

/-- The mark of a punctuation token. -/
def mark? : TokenClass → Option Char
  | punctuation mark => some mark
  | _ => none

theorem role?_eq_some_iff {cls : TokenClass} {role : KeywordRole} :
    cls.role? = some role ↔ cls = .keyword role := by
  cases cls <;> simp [role?]

theorem style?_of_mark? {cls : TokenClass} {mark : Char} (h : cls.mark? = some mark) :
    cls.style? = none ∧ cls.role? = none := by
  cases cls <;> simp_all [mark?, style?, role?]

end TokenClass

/-! ## Reserved words

A word is a maximal run of word characters.  `reserved` lists the words with a meaning of their
own; a text starts with a reserved word when its leading run of word characters is one of them, so
that a longer identifier is never taken for the reserved word it begins with. -/

/-- A letter, a digit or the underscore, of ASCII only. -/
def isWordChar (c : Char) : Bool := c.isAlphanum || c == '_'

namespace Word

/-- The reserved words and what they are read as. -/
def reserved : List (Text × TokenClass) :=
  [("and".toList, .operator),
   ("or".toList, .operator),
   ("mod".toList, .operator),
   ("true".toList, .atom),
   ("false".toList, .atom),
   ("boolean".toList, .type),
   ("integer".toList, .type),
   ("number".toList, .type),
   ("text".toList, .type),
   ("alert".toList, .builtin),
   ("cast".toList, .builtin),
   ("input".toList, .builtin),
   ("output".toList, .builtin),
   ("say".toList, .builtin),
   ("Skynet_Token".toList, .builtin),
   ("is".toList, .keyword .neutral),
   ("me".toList, .keyword .neutral),
   ("package".toList, .keyword .neutral),
   ("parent".toList, .keyword .neutral),
   ("public".toList, .keyword .neutral),
   ("private".toList, .keyword .neutral),
   ("return".toList, .keyword .neutral),
   ("returns".toList, .keyword .neutral),
   ("times".toList, .keyword .neutral),
   ("until".toList, .keyword .neutral),
   ("use".toList, .keyword .neutral),
   ("action".toList, .keyword .opener),
   ("check".toList, .keyword .opener),
   ("class".toList, .keyword .opener),
   ("if".toList, .keyword .opener),
   ("repeat".toList, .keyword .opener),
   ("always".toList, .keyword .divider),
   ("detect".toList, .keyword .divider),
   ("else".toList, .keyword .divider),
   ("elseif".toList, .keyword .divider),
   ("end".toList, .keyword .closer)]

/-- The class of a reserved word. -/
def classOf? (word : Text) : Option TokenClass := reserved.lookup word

/-- The run of word characters that a text starts with. -/
def leading (t : Text) : Text := t.takeWhile isWordChar

/-- The reserved word that a text starts with, and its class. -/
def leading? (t : Text) : Option (Text × TokenClass) :=
  (classOf? (leading t)).map fun cls => (leading t, cls)

/-- The words that line up with the line that opened the innermost block. -/
def closers : List Text := ["else".toList, "elseif".toList, "end".toList]

end Word

end BlockLayout
