import BlockLayout.Text.Pattern

/-! # Electric lines

A line is electric when typing it should lay it out again at once.  Which lines are is told by a
pattern that the whole line has to match: any blanks, and then one of the words that line up with the
opener of the innermost block. -/

namespace BlockLayout

/-- Any blanks, then a word that lines up with the opener of the innermost block, and no more. -/
def electricPattern : Pattern :=
  .andThen (.many Text.isBlank)
    (.andThen (.oneOf ["else".toList, "elseif".toList, "end".toList]) .atEnd)

/-- The line should be laid out again as soon as it is typed. -/
def isElectric (line : Text) : Bool := (electricPattern.first? line).isSome

end BlockLayout
