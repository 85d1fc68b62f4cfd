import BlockLayout.Bits64
import BlockLayout.Document.Notice
import BlockLayout.Settings.Library
import BlockLayout.Toml.Document
import BlockLayout.Toml.Reader

/-! # The library of settings

`Settings.library` is the library that the program runs with.  Sources are TOML documents; they are
laid over each other in order, and the overrides over all of them.  A key is a path, so that a document
or an override can also reach into a setting.  A value that is replaced is never looked at. -/

namespace BlockLayout

/-! ## Key paths

A key path names a place in the settings: a name, and then steps into a table by `.name` or into a
sequence by `[index]`.  Names hold letters, digits, spaces, underscores and hyphens; an index is a
whole number of 64 bits with a sign, maybe between spaces. -/

/-- A step into a table or into a sequence. -/
inductive KeyStep where
  | field (name : Text)
  | index (position : Int)
  deriving DecidableEq, Repr

/-- A name and the steps from it on. -/
structure KeyPath where
  name : Text
  steps : List KeyStep
  deriving DecidableEq, Repr

namespace KeyPath

open Toml Reader

/-- A character of a name. -/
def isNameChar (c : Char) : Bool := c.isAlphanum || c == ' ' || c == '_' || c == '-'

/-- An index between its brackets. -/
def index : Reader Int := do
  char '['
  spaces
  let negative ← (char '-').as true <|> pure false
  let n : Int := digitsValue 10 (← someRun Char.isDigit)
  spaces
  char ']'
  let position := if negative then -n else n
  if Bits64.fitsSigned position then return position else failure

/-- One step. -/
def step : Reader KeyStep :=
  KeyStep.field <$> (char '.' *> someRun isNameChar) <|> KeyStep.index <$> index

/-- The path that a text writes. -/
def parse? (t : Text) : Option KeyPath := do
  let read : Reader KeyPath := do
    let name ← someRun isNameChar
    let steps ← many step
    finish
    return ⟨name, steps⟩
  let (path, _) ← read t
  return path

end KeyPath

/-! ## The library -/

namespace Settings

/-- The value of a setting, and the file it comes from. -/
structure Entry where
  value : Value
  origin : Option Text
  deriving DecidableEq, Repr

/-- The entries of both settings, where there are any. -/
structure Entries where
  indentUnit : Option Entry := none
  tabSize : Option Entry := none
  deriving DecidableEq, Repr

/-- A value under a key path, and the file it comes from. -/
structure Assignment where
  path : KeyPath
  value : Value
  origin : Option Text
  deriving DecidableEq, Repr

namespace Entry

/-- The entry after a value is laid over it.  A table is merged into a table; an empty one adds
nothing. -/
def assign (old : Option Entry) (value : Value) (origin : Option Text) : Option Entry :=
  match value with
  | .table true => old
  | .table false => some ⟨.table false, none⟩
  | value => some ⟨value, origin⟩

/-- The entry after something is laid over a place inside it: it becomes a table or a sequence. -/
def enter (old : Option Entry) : KeyStep → Entry
  | .field _ => ⟨.table false, none⟩
  | .index _ => ⟨.sequence, (old.filter (·.value = .sequence)).bind Entry.origin⟩

/-- The entry after an assignment to it or into it. -/
def apply (old : Option Entry) (a : Assignment) : Option Entry :=
  match a.path.steps with
  | [] => assign old a.value a.origin
  | step :: _ => some (enter old step)

end Entry

namespace Entries

/-- The entries after an assignment.  The case of letters in the name of a setting does not matter,
and names of no setting are passed over. -/
def apply (entries : Entries) (a : Assignment) : Entries :=
  let name := a.path.name.map Char.toLower
  if name = "indent_unit".toList then
    { entries with indentUnit := Entry.apply entries.indentUnit a }
  else if name = "tab_size".toList then
    { entries with tabSize := Entry.apply entries.tabSize a }
  else
    entries

/-- The number of an entry. -/
def number (key : String) (entry : Option Entry) : Except LoadError Nat :=
  match entry with
  | none => .error (.badValue .missing key none)
  | some entry =>
    match entry.value.toWhole with
    | .ok n => .ok n
    | .error mismatch => .error (.badValue mismatch key entry.origin)

/-- The settings that the entries write. -/
def settings (entries : Entries) : Except LoadError Settings := do
  let indentUnit ← number "indent_unit" entries.indentUnit
  let tabSize ← number "tab_size" entries.tabSize
  return ⟨indentUnit, tabSize⟩

end Entries

/-! ### Sources -/

/-- The assignments of a document.  A key that is no path is passed over.  For a document that comes
from no file the origin is left out. -/
def readDocument (origin : Option Text) (t : Text) : Except LoadError (List Assignment) :=
  match Toml.parse? t with
  | none => .error .badDocument
  | some (.table _ entries) => .ok (entries.filterMap fun (key, item) =>
      (KeyPath.parse? key).map fun keyPath => ⟨keyPath, .ofItem item, origin⟩)
  | some item => .error (.notTable (.ofItem item) (origin.getD []))

/-- The paths at which a file of settings may be: the given one, and the same with an ending. -/
def fileCandidates (path : Text) : List Text :=
  path :: (Files.addEnding? ".toml".toList path).toList

/-- The path of a file of settings, and its bytes. -/
def findFile (files : Files) (path : Text) : Option (Text × ByteArray) :=
  (fileCandidates path).findSome? fun path =>
    match files path with
    | .file bytes => some (path, bytes)
    | _ => none

/-- The assignments of a file. -/
def readFile (files : Files) (path : Text) (required : Bool) :
    Except LoadError (List Assignment) :=
  match findFile files path with
  | none => if required then .error (.missingFile path) else .ok []
  | some (path, bytes) =>
    match Text.ofBytes? bytes with
    | none => if required then .error .notText else .ok []
    | some t => readDocument (some (Files.plain path)) t

/-- The assignments of a source. -/
def readSource (files : Files) : Source → Except LoadError (List Assignment)
  | .text content => readDocument none content
  | .file path required => readFile files path required

/-! ### The builder -/

/-- The sources and the overrides that have been gathered. -/
structure Builder where
  sources : List Source := []
  overrides : List Assignment := []
  deriving DecidableEq, Repr

namespace Builder

/-- Takes up a value for a key, if the key is a path. -/
def setOverride (b : Builder) (key : Text) (value : Value) : Except LoadError Builder :=
  match KeyPath.parse? key with
  | some path => .ok { b with overrides := b.overrides ++ [⟨path, value, none⟩] }
  | none => .error .badKey

/-- The entries that the sources and the overrides leave. -/
def build (files : Files) (b : Builder) : Except LoadError Entries := do
  let read ← b.sources.mapM (readSource files)
  return (read.flatten ++ b.overrides).foldl Entries.apply {}

end Builder

/-- The library that the program runs with. -/
def library : Library where
  Builder := Builder
  Table := Entries
  empty := {}
  addSource b source := { b with sources := b.sources ++ [source] }
  setOverride := Builder.setOverride
  build := Builder.build
  deserialize := Entries.settings

/-- The settings of layers over the defaults, not yet validated. -/
def combine (files : Files) (layers : List Layer) : Except LoadError Settings :=
  library.combine files layers

/-- The valid settings of layers over the defaults. -/
def load (files : Files) (layers : List Layer) : Except LoadError Settings :=
  library.load files layers

/-- What putting settings together reports. -/
def loadNotices (files : Files) (layers : List Layer) : List Notice :=
  match combine files layers with
  | .ok settings => [.loaded settings]
  | .error _ => []

end Settings

end BlockLayout
