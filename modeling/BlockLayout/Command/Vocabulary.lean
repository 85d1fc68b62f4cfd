import BlockLayout.Bits64
import BlockLayout.Text.Column
import BlockLayout.Toml.Reader

/-! # The vocabulary of the command line

The tasks that the program carries out, the options that take a value, and the switches that ask
for help or for the version.  The options for settings may stand before and after the name of the
task, the format only after the task that lists tokens, and the version only before a task. -/

namespace BlockLayout.Command

/-- The name of the program. -/
def programName : String := "quorum"

/-- The version of the program. -/
def version : String := "0.1.0"

/-- What the program is for. -/
def programAbout : String := "A tool for lexing and indenting Quorum source files"

/-- Something that the program can be asked to do. -/
inductive Task where
  /-- List the tokens of a file. -/
  | tokens
  /-- Lay a file out. -/
  | indent
  /-- Tell whether a line is electric. -/
  | electric
  deriving DecidableEq, Repr

namespace Task

/-- Every task, in the order of the help text. -/
def all : List Task := [tokens, indent, electric]

/-- The name of a task. -/
def name : Task → String
  | tokens => "tokens"
  | indent => "indent"
  | electric => "electric"

/-- What a task does. -/
def about : Task → String
  | tokens => "List the tokens of every line"
  | indent => "Print the file with every line re-indented"
  | electric => "Tell whether typing this line should re-indent it immediately"

/-- The name of the operand of a task. -/
def operand : Task → String
  | electric => "text"
  | _ => "path"

/-- What the operand of a task is. -/
def operandAbout : Task → String
  | electric => "The line as typed"
  | _ => "Path to the Quorum file"

/-- The task of a name. -/
def ofName? (name : Text) : Option Task := all.find? fun task => task.name.toList = name

end Task

/-- The task that prints a help text. -/
def helpName : Text := "help".toList

/-- The text names a task, or asks for help. -/
def isTaskName (name : Text) : Bool := name = helpName || (Task.ofName? name).isSome

/-- An option that takes a value. -/
inductive ValueOption where
  /-- A file of settings. -/
  | config
  /-- The indent unit. -/
  | indentUnit
  /-- The format of a listing. -/
  | format
  deriving DecidableEq, Repr

/-- The name of an option. -/
def ValueOption.name : ValueOption → String
  | config => "config"
  | indentUnit => "indent-unit"
  | format => "format"

/-- An option with its value, as messages write it. -/
def ValueOption.usage (o : ValueOption) : String := s!"--{o.name} <{o.name}>"

/-- An argument that starts with a hyphen. -/
inductive Switch where
  | value (option : ValueOption)
  | help
  | version
  deriving DecidableEq, Repr

/-- The name of a switch. -/
def Switch.name : Switch → String
  | value option => option.name
  | help => "help"
  | version => "version"

/-- The letter of a switch, if it has one. -/
def Switch.letter? : Switch → Option Char
  | value .config => some 'c'
  | value .indentUnit => none
  | value .format => some 'f'
  | help => some 'h'
  | version => some 'V'

/-- Where an argument stands: before the task, or after it. -/
inductive Place where
  | program
  | task (task : Task)
  deriving DecidableEq, Repr

/-- The switches that are known in a place, in the order of the help text. -/
def Place.switches : Place → List Switch
  | program => [.value .config, .value .indentUnit, .help, .version]
  | task .tokens => [.value .config, .value .format, .value .indentUnit, .help]
  | task _ => [.value .config, .value .indentUnit, .help]

/-! ## Help texts

A help text says what the program or one of its tasks does, how it is called, and what its arguments
mean, in rows of two columns. -/

/-- What a help text is about. -/
inductive Topic where
  | program
  | task (task : Task)
  /-- The task that prints help texts. -/
  | help
  deriving DecidableEq, Repr

/-- Rows of two columns under a title. -/
def rowsUnder (title : String) (rows : List (String × String)) : String :=
  let width := (rows.map fun row => row.1.length).foldl max 0
  let lines := rows.map fun (left, right) =>
    let gap := String.ofList (List.replicate (width - left.length + 2) ' ')
    "  " ++ left ++ gap ++ right ++ "\n"
  "\n" ++ title ++ ":\n" ++ String.join lines

/-- What a switch does. -/
def Switch.about : Switch → String
  | value .config => "TOML file layered over the default settings"
  | value .indentUnit => "Columns per nesting level"
  | value .format => "Output format ('text' or 'json') [default: text]"
  | help => "Print help"
  | version => "Print version"

/-- A switch in the left column. -/
def Switch.label (s : Switch) : String :=
  let letter := match s.letter? with
    | some c => s!"-{c}, "
    | none => "    "
  match s with
  | value option => letter ++ option.usage
  | _ => letter ++ "--" ++ s.name

/-- The rows of the switches that are known in a place. -/
def Place.rows (place : Place) : List (String × String) :=
  place.switches.map fun s => (s.label, s.about)

/-- What the task that prints help texts does. -/
def helpAbout : String := "Print this message or the help of the given subcommand(s)"

/-- What a topic is, in one line. -/
def Topic.about : Topic → String
  | program => programAbout
  | task t => t.about
  | help => helpAbout

/-- The help text of a topic. -/
def Topic.text : Topic → String
  | program =>
    s!"{programAbout}\n\nUsage: {programName} [OPTIONS] <COMMAND>\n"
      ++ rowsUnder "Commands"
        ((Task.all.map fun t => (t.name, t.about)) ++ [("help", helpAbout)])
      ++ rowsUnder "Options" Place.program.rows
  | task t =>
    s!"{t.about}\n\nUsage: {programName} {t.name} [OPTIONS] <{t.operand}>\n"
      ++ rowsUnder "Arguments" [(s!"<{t.operand}>", t.operandAbout)]
      ++ rowsUnder "Options" (Place.task t).rows
  | help =>
    s!"{helpAbout}\n\nUsage: {programName} help [COMMAND]...\n"
      ++ rowsUnder "Arguments" [("[COMMAND]...", "Print help for the subcommand(s)")]

/-! ## Whole numbers on the command line

A whole number of 64 bits has an optional sign and at least one digit.  The first thing that is
wrong from the left is reported. -/

/-- Why a text is no whole number. -/
inductive NotInteger where
  | empty
  | badDigit
  | tooLarge
  | tooSmall
  deriving DecidableEq, Repr

/-- What is wrong, in words. -/
def NotInteger.message : NotInteger → String
  | empty => "cannot parse integer from empty string"
  | badDigit => "invalid digit found in string"
  | tooLarge => "number too large to fit in target type"
  | tooSmall => "number too small to fit in target type"

/-- The number of further digits behind one read so far, up to a limit. -/
def digitsUpTo (limit : Nat) (beyond : NotInteger) (n : Nat) : Text → Except NotInteger Nat
  | [] => .ok n
  | c :: t =>
    if !c.isDigit then .error .badDigit
    else
      let m := 10 * n + Toml.digitValue c
      if limit < m then .error beyond else digitsUpTo limit beyond m t

/-- The whole number of 64 bits that a text writes. -/
def readInteger : Text → Except NotInteger Int
  | [] => .error .empty
  | ['-'] => .error .badDigit
  | ['+'] => .error .badDigit
  | '-' :: t => (digitsUpTo Bits64.half .tooSmall 0 t).map fun n => -(n : Int)
  | '+' :: t => (digitsUpTo (Bits64.half - 1) .tooLarge 0 t).map fun n => (n : Int)
  | t => (digitsUpTo (Bits64.half - 1) .tooLarge 0 t).map fun n => (n : Int)

end BlockLayout.Command
