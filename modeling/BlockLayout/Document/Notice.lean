import BlockLayout.Document.State

/-! # Notices

What a pass over a document reports as it goes: every block event, and the numbers of lines and of
open blocks at the end.  The events are those of the keywords on the annotated lines, which is all
that the open blocks depend on. -/

namespace BlockLayout

/-- Something that a pass reports. -/
inductive Notice where
  /-- The open blocks changed. -/
  | block (event : BlockEvent)
  /-- A source of this many lines was annotated and leaves this many blocks open. -/
  | annotated (lines blocks : Nat)
  /-- A source of this many lines was laid out. -/
  | laidOut (lines : Nat)
  /-- Settings were put together. -/
  | loaded (settings : Settings)
  deriving DecidableEq, Repr

/-- A notice in words, the level of detail first. -/
def Notice.message : Notice → String
  | block event => s!"TRACE {event.message}"
  | annotated lines blocks => s!"DEBUG highlighted {lines} lines, {blocks} contexts left open"
  | laidOut lines => s!"DEBUG reindented {lines} lines"
  | loaded s => s!"DEBUG loaded config: indent_unit={s.indentUnit} tab_size={s.tabSize}"

namespace Document

/-- The block events on annotated lines of a document. -/
def blockNotices (settings : Settings) (lines : List AnnotatedLine) : List Notice :=
  ((Blocks.start settings.indentUnit).eventsOf (lines.flatMap AnnotatedLine.keywords)).map .block

/-- What annotating a source reports. -/
def annotateNotices (settings : Settings) (source : Text) : List Notice :=
  let (lines, last) := annotate settings source
  blockNotices settings lines ++ [.annotated lines.length last.blocks.opened.length]

/-- What laying a source out reports. -/
def layoutNotices (settings : Settings) (source : Text) : List Notice :=
  let lines := layoutLines settings source
  let annotated := (LineState.start settings).annotateLines settings.tabSize 1 lines
  blockNotices settings annotated.1 ++ [.laidOut lines.length]

end Document

end BlockLayout
