import BlockLayout.Command.Invocation
import BlockLayout.Document.Listing
import BlockLayout.Electric
import BlockLayout.Settings.Load

/-! # Running the program

Settings come from the defaults, the file of the project if there is one, the file that an option
names, and the option for the indent unit, each over those before.  They are put together before the
task looks at its operand. -/

namespace BlockLayout.Command

/-- What the program prints and how it ends. -/
structure Outcome where
  status : Nat
  output : Text := []
  errors : Text := []
  deriving DecidableEq, Repr

/-- The file of settings that a project has in its directory. -/
def projectFile : Text := "quorum.toml".toList

/-- The layers of settings that options ask for. -/
def Options.layers (options : Options) : List Layer :=
  .file projectFile false
    :: (options.config.map fun path => Layer.file path true).toList
    ++ (options.indentUnit.map fun n => Layer.override "indent_unit".toList (.integer n)).toList

/-- An outcome of failure with a message. -/
def failed (message : Text) : Outcome := ⟨1, [], message ++ ['\n']⟩

/-- The text of a source file, or why there is none. -/
def readSource (files : Files) (path : Text) : Except Text Text :=
  match files path with
  | .file bytes =>
    match Text.ofBytes? bytes with
    | some t => .ok t
    | none => .error "Error reading file: stream did not contain valid UTF-8".toList
  | .device => .ok []
  | .nothing => .error "Error reading file: No such file or directory (os error 2)".toList
  | .notDirectory => .error "Error reading file: Not a directory (os error 20)".toList
  | .directory => .error "Error reading file: Is a directory (os error 21)".toList
  | .nameTooLong => .error "Error reading file: File name too long (os error 36)".toList

/-- The tokens of a source in a format, or why it cannot be written so. -/
def formatTokens (settings : Settings) (format : Text) (source : Text) : Except Text Text :=
  if format = "text".toList then .ok (Document.listing settings source)
  else if format = "json".toList then
    .ok ((Document.toTree (Document.annotate settings source).1).render 0)
  else
    .error ("Format '".toList ++ format ++ "' not supported\nAvailable formats: text, json".toList)

/-- Carries a task out. -/
def Invocation.run (files : Files) (settings : Settings) (i : Invocation) : Outcome :=
  match i.task with
  | .electric =>
    if isElectric i.operand then ⟨0, "electric\n".toList, []⟩
    else ⟨1, "not electric\n".toList, []⟩
  | .indent =>
    match readSource files i.operand with
    | .ok source => ⟨0, Document.layout settings source, []⟩
    | .error message => failed message
  | .tokens =>
    match readSource files i.operand >>= formatTokens settings (i.options.format.getD "text".toList)
    with
    | .ok listing => ⟨0, listing, []⟩
    | .error message => failed message

/-- Why the settings could not be loaded, as the program reports it. -/
def loadFailure : LoadError → Outcome
  | .badDocument => ⟨1, [], "TOML parse error".toList⟩
  | error => failed ("Error: ".toList ++ error.message.toList)

/-- What the program does with its arguments in a directory.  Of a misuse only the first line is
reported. -/
def run (files : Files) (arguments : List Text) : Outcome :=
  match readInvocation arguments with
  | .error (.help topic) => ⟨0, topic.text.toList, []⟩
  | .error .version => ⟨0, s!"{programName} {version}\n".toList, []⟩
  | .error (.misuse misuse) => ⟨2, [], misuse.message.lines.headD []⟩
  | .ok invocation =>
    match Settings.load files invocation.options.layers with
    | .ok settings => invocation.run files settings
    | .error error => loadFailure error

/-- The paths that a run may look at. -/
def pathsOf (arguments : List Text) : List Text :=
  match readInvocation arguments with
  | .ok i =>
    let configs := projectFile :: i.options.config.toList
    configs.flatMap Settings.fileCandidates ++ [i.operand]
  | .error _ => []

end BlockLayout.Command
