import BlockLayout.Command.Run

/-! # The program

Looks at the files that the arguments name, runs the command and prints what it gives. -/

open BlockLayout

/-- What is found under a path. -/
def lookAt (path : Text) : IO Found := do
  try
    return .file (← IO.FS.readBinFile (String.ofList path))
  catch
    | .inappropriateType _ 21 _ => return .directory
    | .inappropriateType _ _ _ => return .notDirectory
    | .invalidArgument _ 36 _ => return .nameTooLong
    | _ => return .nothing

def main (arguments : List String) : IO UInt32 := do
  let arguments := arguments.map String.toList
  let found ← (Command.pathsOf arguments).mapM fun path => return (path, ← lookAt path)
  let files : Files := fun path => (found.lookup path).getD .nothing
  let outcome := Command.run files arguments
  IO.print (String.ofList outcome.output)
  unless outcome.errors.isEmpty do
    IO.eprint (String.ofList outcome.errors)
  return outcome.status.toUInt32
