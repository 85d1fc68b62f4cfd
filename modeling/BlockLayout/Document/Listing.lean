import BlockLayout.Document.State
import BlockLayout.Text.Display

/-! # Printed annotations

A listing writes one line for each line of a source: its number, the depth after it in brackets,
and its spans.  A span with a style is followed by a colon and the style, and a keyword further by a
slash and its role. -/

namespace BlockLayout

/-- A span in a listing. -/
def Span.render (span : Span) : Text :=
  match span.cls.role?, span.cls.style? with
  | some role, _ => span.text ++ s!":keyword/{role.name}".toList
  | none, some style => span.text ++ s!":{style.name}".toList
  | none, none => span.text

/-- A line in a listing, with its line feed. -/
def AnnotatedLine.render (line : AnnotatedLine) : Text :=
  s!"{line.number} [{line.depth}]".toList ++ line.spans.flatMap (fun span => ' ' :: span.render)
    ++ ['\n']

/-- The listing of annotated lines. -/
def Document.renderListing (lines : List AnnotatedLine) : Text :=
  lines.flatMap AnnotatedLine.render

/-- The listing of a source. -/
def Document.listing (settings : Settings) (source : Text) : Text :=
  renderListing (annotate settings source).1

/-! ## Written trees

A tree of numbers, texts, lists and records, written with one value to a line.  What stands inside a
list or a record is moved two columns to the right; a list without items is written on one line. -/

namespace Json

/-- A tree. -/
inductive Tree where
  | number (value : Nat)
  | text (value : Text)
  | list (items : List Tree)
  | record (fields : List (String × Tree))

/-- A character of a text between quotes. -/
def escapeChar (c : Char) : Text :=
  match c with
  | '"' => ['\\', '"']
  | '\\' => ['\\', '\\']
  | '\n' => ['\\', 'n']
  | '\r' => ['\\', 'r']
  | '\t' => ['\\', 't']
  | '\x08' => ['\\', 'b']
  | '\x0c' => ['\\', 'f']
  | c =>
    if c.toNat < 0x10 then "\\u000".toList ++ Text.hexDigits c.toNat
    else if c.toNat < 0x20 then "\\u00".toList ++ Text.hexDigits c.toNat
    else [c]

/-- A text between quotes. -/
def escape (t : Text) : Text := '"' :: t.flatMap escapeChar ++ ['"']

/-- The start of a line at a margin. -/
def newLine (margin : Nat) : Text := '\n' :: List.replicate margin ' '

mutual

/-- A tree whose last line stands at the given margin. -/
def Tree.render (margin : Nat) : Tree → Text
  | .number n => (toString n).toList
  | .text t => escape t
  | .list [] => ['[', ']']
  | .list (item :: items) =>
    '[' :: newLine (margin + 2) ++ item.render (margin + 2) ++ renderItems (margin + 2) items
      ++ newLine margin ++ [']']
  | .record [] => ['\x7b', '\x7d']
  | .record ((name, value) :: fields) =>
    '\x7b' :: newLine (margin + 2) ++ escape name.toList ++ ':' :: ' ' :: value.render (margin + 2)
      ++ renderFields (margin + 2) fields ++ newLine margin ++ ['\x7d']

/-- The items of a list after the first. -/
def renderItems (margin : Nat) : List Tree → Text
  | [] => []
  | item :: items => ',' :: newLine margin ++ item.render margin ++ renderItems margin items

/-- The fields of a record after the first. -/
def renderFields (margin : Nat) : List (String × Tree) → Text
  | [] => []
  | (name, value) :: fields =>
    ',' :: newLine margin ++ escape name.toList ++ ':' :: ' ' :: value.render margin
      ++ renderFields margin fields

end

end Json

/-! ## Annotations as trees

Annotated lines as records, for programs to read. -/

open Json (Tree)

/-- A mode by its name; a string with its quote. -/
def Mode.toTree : Mode → Tree
  | base => .text "base".toList
  | blockComment => .text "in_block_comment".toList
  | string quote => .record [("in_string", .text [quote])]

/-- The fields of a class that has them. -/
def TokenClass.fields (cls : TokenClass) : List (String × Tree) :=
  (cls.style?.map fun style => ("style", Tree.text style.name.toList)).toList
    ++ (cls.role?.map fun role => ("keyword", Tree.text role.name.toList)).toList
    ++ (cls.mark?.map fun mark => ("punctuation", Tree.text [mark])).toList

/-- A span as a record. -/
def Span.toTree (span : Span) : Tree :=
  .record ([("start", .number span.start), ("end", .number span.stop), ("text", .text span.text)]
    ++ span.cls.fields)

/-- An annotated line as a record. -/
def AnnotatedLine.toTree (line : AnnotatedLine) : Tree :=
  .record
    [("number", .number line.number), ("indentation", .number line.indentation),
     ("depth", .number line.depth), ("mode", line.mode.toTree),
     ("spans", .list (line.spans.map Span.toTree))]

/-- Annotated lines as a list of records. -/
def Document.toTree (lines : List AnnotatedLine) : Tree := .list (lines.map AnnotatedLine.toTree)

end BlockLayout
