import BlockLayout.Document.State
import BlockLayout.Files
import BlockLayout.Text.Column
import BlockLayout.Text.Display
import BlockLayout.Toml.Item
import BlockLayout.Toml.Reader

/-! # Loading settings

Settings are put together by a library for layered settings: a builder gathers sources of values and
values that override all sources, builds a table from them, and the settings are taken from the table.
`Library` says what such a library can do, and nothing of how it does it.

`Library.load` is what the program does with one.  The first source is the document of the default
settings; layers of files and overrides follow in the order in which they are given.  Only the settings
that come out must be valid. -/

namespace BlockLayout

/-! ## Values

A layer may give a key any value; only some can be taken as a whole number of 64 bits.  Fractions
are rounded, truth values count as one and zero, and a text may write a truth value or a number.
`Value.toWhole` takes a value as a number or says why it is none. -/

/-- A value that a key has.  What stands inside a sequence or a table plays no part. -/
inductive Value where
  | null
  | boolean (value : Bool)
  | integer (value : Int)
  | fraction (value : Fraction)
  | text (value : Text)
  | sequence
  | table (isEmpty : Bool)
  deriving DecidableEq, Repr

/-- Why there is no whole number. -/
inductive Mismatch where
  /-- There is no value. -/
  | missing
  /-- An integer below zero. -/
  | negative (value : Int)
  /-- A value that is no number of any kind. -/
  | notNumber (value : Value)
  deriving DecidableEq, Repr

namespace Value

/-- The value of an item of a document. -/
def ofItem : Toml.Item → Value
  | .scalar (.boolean b) => boolean b
  | .scalar (.integer n) => integer n
  | .scalar (.fraction f) => fraction f
  | .scalar (.text t) => text t
  | .scalar (.moment t) => text t
  | .array _ => sequence
  | .tables _ => sequence
  | .table _ entries => table entries.isEmpty

/-- The truth value that a text writes, in any case of letters. -/
def truthOf? (t : Text) : Option Bool :=
  let t := t.map Char.toLower
  if ["true".toList, "on".toList, "yes".toList].contains t then some true
  else if ["false".toList, "off".toList, "no".toList].contains t then some false
  else none

/-- The whole number of 64 bits that a text writes in decimal, maybe behind a plus. -/
def wholeOf? (t : Text) : Option Nat :=
  let digits := match t with
    | '+' :: t => t
    | t => t
  let n := Toml.digitsValue 10 digits
  if digits ≠ [] && digits.all Char.isDigit && n ≤ Bits64.maxWhole then some n else none

/-- The whole number that a value is taken as. -/
def toWhole : Value → Except Mismatch Nat
  | boolean b => .ok b.toNat
  | integer n => if n < 0 then .error (.negative n) else .ok n.toNat
  | fraction f => .ok f.toWhole
  | text t =>
    match (truthOf? t).map Bool.toNat |>.or (wholeOf? t) with
    | some n => .ok n
    | none => .error (.notNumber (text t))
  | value => .error (.notNumber value)

/-- What a value is, in words. -/
def describe : Value → String
  | null => "unit value"
  | boolean b => s!"boolean `{b}`"
  | integer n => s!"64-bit integer `{n}`"
  | fraction _ => "floating point number"
  | text t => s!"string {String.ofList t.quoted}"
  | sequence => "sequence"
  | table _ => "map"

end Value

/-- What stands in place of the number of a key, and what was wanted, in words. -/
def Mismatch.message (key : String) : Mismatch → String
  | missing => s!"missing field `{key}`"
  | negative n => s!"invalid type: {(Value.integer n).describe}, expected an unsigned 64 bit or less "
      ++ s!"integer for key `{key}`"
  | notNumber v => s!"invalid type: {v.describe}, expected an integer for key `{key}`"

/-! ## Loading -/

/-- A layer of settings. -/
inductive Layer where
  /-- A file, which must be there if it is required. -/
  | file (path : Text) (required : Bool)
  /-- A value for one key, over all files. -/
  | override (key : Text) (value : Value)
  deriving DecidableEq, Repr

/-- Why no settings could be had. -/
inductive LoadError where
  /-- A required file is not there. -/
  | missingFile (path : Text)
  /-- A required file is not in UTF-8. -/
  | notText
  /-- A file is not a document. -/
  | badDocument
  /-- A file is a document of something else than a table. -/
  | notTable (value : Value) (origin : Text)
  /-- The key of an override is not a path. -/
  | badKey
  /-- A setting has no value, or one that is no number. -/
  | badValue (mismatch : Mismatch) (key : String) (origin : Option Text)
  /-- The settings are not valid. -/
  | invalid (defect : Settings.Defect)
  deriving DecidableEq, Repr

/-- What is wrong, in words. -/
def LoadError.message : LoadError → String
  | missingFile path =>
    "Failed to load configuration: configuration file \"" ++ String.ofList path ++ "\" not found"
  | notText => "Failed to load configuration: stream did not contain valid UTF-8"
  | badDocument => "Failed to load configuration: TOML parse error"
  | notTable value path =>
    s!"Failed to load configuration: invalid type: {value.describe}, expected a map in "
      ++ String.ofList path ++ " in " ++ String.ofList path
  | badKey => "Failed to load configuration: bad key"
  | badValue mismatch key none => s!"Failed to load configuration: {mismatch.message key}"
  | badValue mismatch key (some path) =>
    s!"Failed to load configuration: {mismatch.message key} in " ++ String.ofList path
  | invalid defect => defect.message

namespace Settings

/-- Where values of settings come from. -/
inductive Source where
  /-- A document. -/
  | text (content : Text)
  /-- A file that holds a document.  It must be there if it is required. -/
  | file (path : Text) (required : Bool)
  deriving DecidableEq, Repr

/-- The document of the default settings. -/
def defaultDocument : Text :=
  Text.unlines true <|
    ["# Default settings for the Quorum lexer and indentation engine.",
     "",
     "# Columns per nesting level when suggesting indentation.",
     "indent_unit = 4",
     "",
     "# Columns a tab character advances to when measuring indentation.",
     "tab_size = 4"].map String.toList

/-- A library for layered settings. -/
structure Library where
  /-- What has been gathered. -/
  Builder : Type
  /-- The values that were put together. -/
  Table : Type
  /-- Nothing is gathered yet. -/
  empty : Builder
  /-- Takes up a source. -/
  addSource : Builder → Source → Builder
  /-- Takes up a value for a key over all sources. -/
  setOverride : Builder → Text → Value → Except LoadError Builder
  /-- Reads the sources and puts the values together. -/
  build : Files → Builder → Except LoadError Table
  /-- The settings that a table gives. -/
  deserialize : Table → Except LoadError Settings

namespace Library

variable (l : Library)

/-- The default settings are gathered. -/
def start : l.Builder := l.addSource l.empty (.text defaultDocument)

/-- Takes up a layer. -/
def add (builder : l.Builder) : Layer → Except LoadError l.Builder
  | .file path required => .ok (l.addSource builder (.file path required))
  | .override key value => l.setOverride builder key value

/-- The settings of layers over the defaults, not yet validated. -/
def combine (files : Files) (layers : List Layer) : Except LoadError Settings := do
  let builder ← layers.foldlM l.add l.start
  let table ← l.build files builder
  l.deserialize table

/-- The valid settings of layers over the defaults. -/
def load (files : Files) (layers : List Layer) : Except LoadError Settings := do
  let settings ← l.combine files layers
  settings.validate.mapError LoadError.invalid

end Library

end Settings

end BlockLayout
