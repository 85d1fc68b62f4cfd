import BlockLayout.Toml.Item

/-! # Documents

A document is a sequence of statements, each on lines of its own: the header of a table, the header
of a table in an array, or a key with its value.  `Toml.parse?` gives the item that the document
writes, which is a table unless its first key makes it a date or time, or nothing if the text is not
a document. -/

namespace BlockLayout.Toml

open Reader

/-! ### Values -/

/-- A value without parts. -/
def scalar : Reader Scalar :=
  Scalar.text <$> quoted
    <|> (exactly "true".toList).as (.boolean true)
    <|> (exactly "false".toList).as (.boolean false)
    <|> Scalar.moment <$> dateTime .bare
    <|> Scalar.fraction <$> fraction
    <|> Scalar.integer <$> integer

/-- The items of an array between its brackets, the last maybe with a comma after it. -/
def arrayItems (item : Reader Item) : Reader (List Item) := do
  char '['
  let items ← maybe (separated (gap *> item <* gap) (char ','))
  if items.isSome then
    let _ ← maybe (char ',')
  gap
  char ']'
  return items.getD []

/-- A key with its value, the parts of the key before the last apart. -/
def assignment (item : Reader Item) : Reader (List Text × Text × Item) := do
  let parts ← key
  char '='
  spaces
  let value ← item
  match parts.getLast? with
  | some last => return (parts.dropLast, last, value)
  | none => failure

/-- The entries of a table in braces. -/
def bracedEntries (item : Reader Item) : Reader Entries := do
  char '\x7b'
  let assignments ← maybe (separated (assignment item <* spaces) (char ','))
  spaces
  char '\x7d'
  (assignments.getD []).foldlM (fun entries (path, key, value) =>
    (entries.assign? .header path key value : Option Entries)) ([] : Entries)

/-- A value with arrays and tables in braces up to the given depth. -/
def value : Nat → Reader Item
  | 0 => Item.scalar <$> scalar
  | depth + 1 =>
    Item.array <$> arrayItems (value depth)
      <|> Item.table .braces <$> bracedEntries (value depth)
      <|> Item.scalar <$> scalar

/-! ### Statements -/

/-- A statement of a document. -/
inductive Statement where
  /-- The header of a table. -/
  | header (path : List Text)
  /-- The header of a table in an array. -/
  | arrayHeader (path : List Text)
  /-- A value under a key. -/
  | assign (path : List Text) (key : Text) (item : Item)
  deriving Repr

/-- One statement, with the end of its line. -/
def statement : Reader Statement := do
  let read ←
    (do
      exactly ['[', '[']
      let path ← key
      exactly [']', ']']
      return Statement.arrayHeader path)
    <|> (do
      char '['
      let path ← key
      char ']'
      return Statement.header path)
    <|> (do
      let (path, last, item) ← assignment (value (depthLimit - 1))
      return Statement.assign path last item)
  statementEnd
  return read

/-- A statement, or a line end or comment that stands for none, behind spaces. -/
def line : Reader (Option Statement) := do
  spaces
  lineEnd.as none <|> (comment *> (lineEnd <|> finish)).as none <|> some <$> statement

/-- The statements of a whole document, maybe behind a byte order mark. -/
def statements : Reader (List Statement) := do
  let _ ← maybe (char '\uFEFF')
  let read ← many line
  spaces
  finish
  return read.filterMap id

/-! ### Documents -/

/-- The entries of the document after a statement, and the path of the table that later keys belong
to. -/
def Statement.apply? (state : Entries × List Text) (s : Statement) :
    Option (Entries × List Text) := do
  let (entries, current) := state
  match s with
  | header path =>
    let key ← path.getLast?
    let entries ←
      entries.changeAt? .implied (Entries.openTable? key) .header path.dropLast
    return (entries, path)
  | arrayHeader path =>
    let key ← path.getLast?
    let entries ←
      entries.changeAt? .implied (Entries.appendTable? key) .header path.dropLast
    return (entries, path)
  | assign path key item =>
    let entries ← entries.changeAt? .implied
      (fun origin inner => inner.assign? origin path key item) .header current
    return (entries, current)

/-- The item that a document writes. -/
def parse? (t : Text) : Option Item := do
  let (read, _) ← statements t
  let (entries, _) ← read.foldlM Statement.apply? ([], [])
  tableWithMoments? .header entries

end BlockLayout.Toml
