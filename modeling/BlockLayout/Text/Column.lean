import BlockLayout.Text.Bytes

/-! # Lines and columns

A line feed ends a line, together with a carriage return just before it.  The last line may lack
its line feed; then a carriage return at its end belongs to the line.  A line feed at the very end
of a text starts no further line. -/

namespace BlockLayout.Text

/-- The pieces of a text between its line feeds, one more than there are line feeds. -/
def pieces (t : Text) : List Text := t.splitOn '\n'

/-- The text without one carriage return at its end. -/
def dropReturn (t : Text) : Text := if t.getLast? = some '\r' then t.dropLast else t

/-- The lines that a list of pieces stands for: every piece but the last was ended by a line feed,
and an empty last piece is no line. -/
def linesOfPieces : List Text → List Text
  | [] => []
  | [p] => if p.isEmpty then [] else [p]
  | p :: q :: ps => dropReturn p :: linesOfPieces (q :: ps)

/-- The lines of a text, without their terminators. -/
def lines (t : Text) : List Text := linesOfPieces t.pieces

/-- The text ends with a line feed. -/
def endsLine (t : Text) : Bool := t.getLast? == some '\n'

/-- Lines joined by line feeds, with a last line feed if `terminated`. -/
def unlines (terminated : Bool) (ls : List Text) : Text :=
  ['\n'].intercalate ls ++ if terminated then ['\n'] else []

theorem intercalate_pieces (t : Text) : ['\n'].intercalate t.pieces = t :=
  List.intercalate_splitOn '\n'

/-! ## Columns

The indentation of a line is the column that its leading blanks reach: a tab goes on to the next
multiple of the tab size, every other blank takes one column.  A tab size of zero counts as one. -/

/-- The column that the leading blanks of a text reach from a given column. -/
def columnAfter (tab : Nat) (column : Nat) : Text → Nat
  | [] => column
  | c :: t =>
    if c = '\t' then columnAfter tab (column + (tab - column % tab)) t
    else if isBlank c then columnAfter tab (column + 1) t
    else column

/-- The indentation of a line in columns.  It is a number without a bound: a count in whole numbers of
64 bits would start again at zero behind 2 ^ 64 columns. -/
def columns (tabSize : Nat) (line : Text) : Nat := columnAfter (max tabSize 1) 0 line

end BlockLayout.Text
