import BlockLayout.Command.Vocabulary
import BlockLayout.Text.Display

/-! # Reading the command line

An invocation is a task with its operand and the values of its options.  Arguments are read from
the left.  The value of an option may be joined to it, and is then read at once, or be the argument
after it, and is then read only when the next option or operand comes or the arguments of its place
end; what is wrong with the arguments of a task is therefore found before what is wrong with the
last value in front of the task.  After `--` every argument is an operand. -/

namespace BlockLayout.Command

/-- What is wrong with the arguments. -/
inductive Misuse where
  | noArguments
  | missingTask
  | missingOperand
  | unknownTask (name : Text)
  | unexpected (argument : Text)
  | missingValue (option : ValueOption)
  | unneededValue (value : Text) (switch : Switch)
  | badValue (option : ValueOption) (value : Text) (why : NotInteger)
  | repeated (option : ValueOption)
  deriving DecidableEq, Repr

/-- What is wrong, in words.  Of a part of an argument, the message holds what can be seen. -/
def Misuse.message : Misuse → Text
  | noArguments => programAbout.toList
  | missingTask =>
    s!"error: '{programName}' requires a subcommand but one was not provided".toList
  | missingOperand => "error: the following required arguments were not provided:".toList
  | unknownTask name => "error: unrecognized subcommand '".toList ++ name.visible ++ ['\'']
  | unexpected argument =>
    "error: unexpected argument '".toList ++ argument.visible ++ "' found".toList
  | missingValue option =>
    s!"error: a value is required for '{option.usage}' but none was supplied".toList
  | unneededValue value switch => "error: unexpected value '".toList ++ value.visible
      ++ s!"' for '--{switch.name}' found; no more were expected".toList
  | badValue option value why => "error: invalid value '".toList ++ value.visible
      ++ s!"' for '{option.usage}': {why.message}".toList
  | repeated option => s!"error: the argument '{option.usage}' cannot be used multiple times".toList

/-- Why no task is carried out. -/
inductive Stop where
  | help (topic : Topic)
  | version
  | misuse (misuse : Misuse)
  deriving DecidableEq, Repr

/-- The values of options. -/
structure Options where
  config : Option Text := none
  indentUnit : Option Int := none
  format : Option Text := none
  deriving DecidableEq, Repr

namespace Options

/-- The options with a value for one that has none yet. -/
def give (options : Options) (option : ValueOption) (value : Text) : Except Stop Options :=
  match option with
  | .config =>
    if options.config.isSome then .error (.misuse (.repeated option))
    else .ok { options with config := some value }
  | .format =>
    if options.format.isSome then .error (.misuse (.repeated option))
    else .ok { options with format := some value }
  | .indentUnit =>
    if options.indentUnit.isSome then .error (.misuse (.repeated option))
    else
      match readInteger value with
      | .ok n => .ok { options with indentUnit := some n }
      | .error why => .error (.misuse (.badValue option value why))

/-- The options of a task over those in front of it. -/
def layeredOver (inner outer : Options) : Options :=
  ⟨inner.config.or outer.config, inner.indentUnit.or outer.indentUnit,
    inner.format.or outer.format⟩

end Options

/-- A task with all it needs. -/
structure Invocation where
  task : Task
  operand : Text
  options : Options
  deriving DecidableEq, Repr

/-! ### Arguments of one place -/

/-- What has been read of the arguments of one place. -/
structure Progress where
  options : Options := {}
  /-- The last option whose value was not joined to it, and that value once it has come. -/
  pending : Option (ValueOption × Option Text) := none
  operand : Option Text := none
  /-- Only operands follow. -/
  operandsOnly : Bool := false
  deriving DecidableEq, Repr

namespace Progress

/-- Reads the pending value. -/
def settle (p : Progress) : Except Stop Progress :=
  match p.pending with
  | none => .ok p
  | some (option, none) => .error (.misuse (.missingValue option))
  | some (option, some value) => do
    return { p with pending := none, options := ← p.options.give option value }

/-- The next argument may be the value of an option. -/
def awaitsValue (p : Progress) : Bool := p.pending.any fun pending => pending.2.isNone

/-- Reads a switch, with the value that is joined to it. -/
def readSwitch (place : Place) (p : Progress) (switch : Switch) (joined : Option Text) :
    Except Stop Progress :=
  match switch, joined with
  | .value option, some value => do
    let p ← p.settle
    return { p with options := ← p.options.give option value }
  | .value option, none => do
    let p ← p.settle
    return { p with pending := some (option, none) }
  | switch, some value => .error (.misuse (.unneededValue value switch))
  | .version, none => do
    let _ ← p.settle
    throw .version
  | .help, none => do
    let _ ← p.settle
    match place with
    | .program => throw (.help .program)
    | .task task => throw (.help (.task task))

/-- Reads an operand.  Before the task there is none; a task's name that follows `--` is one. -/
def readOperand (place : Place) (p : Progress) (argument : Text) : Except Stop Progress :=
  match place with
  | .program =>
    if p.operandsOnly && isTaskName argument then .error (.misuse (.unexpected argument))
    else .error (.misuse (.unknownTask argument))
  | .task _ =>
    if p.operand.isSome then .error (.misuse (.unexpected argument))
    else do
      let p ← p.settle
      return { p with operand := some argument }

/-- Reads a switch by its name, maybe with a value after an equals sign. -/
def readLong (place : Place) (p : Progress) (argument : Text) : Except Stop Progress :=
  let name := argument.takeWhile (· != '=')
  let joined := (argument.dropWhile (· != '=')).tail?
  match place.switches.find? fun s => s.name.toList = name with
  | some switch => p.readSwitch place switch joined
  | none => .error (.misuse (.unexpected ("--".toList ++ name)))

/-- Reads a switch by its letter.  What follows the letter is the value of an option, maybe after an
equals sign; behind another switch it is never looked at. -/
def readShort (place : Place) (p : Progress) (letter : Char) (rest : Text) :
    Except Stop Progress :=
  match place.switches.find? fun s => s.letter? = some letter with
  | some (.value option) =>
    p.readSwitch place (.value option) <|
      match rest with
      | [] => none
      | '=' :: value => some value
      | value => some value
  | some switch => p.readSwitch place switch none
  | none => .error (.misuse (.unexpected ['-', letter]))

/-- Reads an argument that names no task. -/
def readArgument (place : Place) (p : Progress) (argument : Text) : Except Stop Progress :=
  if p.operandsOnly then p.readOperand place argument
  else
    match argument, p.pending with
    | ['-', '-'], _ => .ok { p with operandsOnly := true }
    | '-' :: '-' :: t, _ => p.readLong place t
    | '-' :: letter :: t, _ => p.readShort place letter t
    | value, some (option, none) => .ok { p with pending := some (option, some value) }
    | argument, _ => p.readOperand place argument

end Progress

/-! ### The whole command line -/

/-- Reads the arguments of a task. -/
def readTask (task : Task) (arguments : List Text) : Except Stop Invocation := do
  let p ← arguments.foldlM (Progress.readArgument (.task task)) {}
  let p ← p.settle
  match p.operand with
  | some operand => return ⟨task, operand, p.options⟩
  | none => throw (.misuse .missingOperand)

/-- What is printed for a request for help on the given names. -/
def helpOn : List Text → Stop
  | [] => .help .program
  | name :: names =>
    let topic := if name = helpName then some .help else (Task.ofName? name).map .task
    match topic, names with
    | some topic, [] => .help topic
    | some _, name :: _ => .misuse (.unknownTask name)
    | none, _ => .misuse (.unknownTask name)

/-- Reads arguments from what has been read of those before the task. -/
def readProgram (p : Progress) : List Text → Except Stop Invocation
  | [] => do
    let p ← p.settle
    throw (.misuse (if p.options = {} then .noArguments else .missingTask))
  | argument :: arguments =>
    if !p.operandsOnly && !p.awaitsValue && isTaskName argument then
      match Task.ofName? argument with
      | none => .error (helpOn arguments)
      | some task => do
        let invocation ← readTask task arguments
        let p ← p.settle
        return { invocation with options := invocation.options.layeredOver p.options }
    else do
      let p ← p.readArgument .program argument
      readProgram p arguments

/-- The invocation that the arguments of the program write. -/
def readInvocation (arguments : List Text) : Except Stop Invocation := readProgram {} arguments

end BlockLayout.Command
