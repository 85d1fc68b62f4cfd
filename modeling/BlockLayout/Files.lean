import BlockLayout.Text.Bytes

/-! # Files

What a program finds under a path: the bytes of a file, a directory, or nothing.  `Files` answers
for every path; `Files.ofNames` answers from a list of names in the working directory, as a file
system would: a path is taken step by step, and only directories can be stepped through. -/

namespace BlockLayout

/-- What is found under a path. -/
inductive Found where
  | file (bytes : ByteArray)
  | directory
  /-- What can be read like a file without bytes, but is none. -/
  | device
  | nothing
  /-- A part of the path that must be a directory is none. -/
  | notDirectory
  /-- The path or a part of it has too many bytes. -/
  | nameTooLong

/-- What is found under each path. -/
abbrev Files := Text → Found

namespace Files

/-- A part of a path that stays in the same directory. -/
def staysInPlace (part : Text) : Bool := part = [] || part = ['.']

/-- The part of a path that leads to the directory above. -/
def leadsUp : Text := ['.', '.']

/-- The parts of a path, without those that stay in the same directory. -/
def parts (path : Text) : List Text :=
  (path.splitOn '/').filter fun part => !staysInPlace part

/-- A path written with single slashes and without parts that stay in the same directory. -/
def plain (path : Text) : Text :=
  if path.head? = some '/' then path else ['/'].intercalate (parts path)

/-- The path with an ending added to the last name in it, if it ends in a name. -/
def addEnding? (ending path : Text) : Option Text :=
  match (path.splitOn '/').reverse.dropWhile staysInPlace with
  | [] => none
  | last :: before =>
    if last = leadsUp then none
    else some (['/'].intercalate (before.reverse ++ [last ++ ending]))

/-! ### A file system -/

/-- The most bytes of a part of a path. -/
def maxPart : Nat := 255

/-- The most bytes of a path. -/
def maxPath : Nat := 4095

/-- What is found under the parts of a path from a directory on, in a system that holds the given
names.  A name that others start with is that of a directory. -/
def walk (names : List (List Text × Found)) (reached : List Text) : List Text → Found
  | [] => .directory
  | part :: rest =>
    if staysInPlace part then walk names reached rest
    else if part = leadsUp then walk names reached.dropLast rest
    else if maxPart < part.byteLength then .nameTooLong
    else
      let here := reached ++ [part]
      match names.lookup here with
      | some .directory => walk names here rest
      | some found => if rest = [] then found else .notDirectory
      | none =>
        if names.any fun (name, _) => here.isPrefixOf name then walk names here rest else .nothing

/-- The usual directories and empty devices of a system. -/
def system : List (List Text × Found) :=
  ["bin", "etc", "home", "lib", "opt", "proc", "sys", "tmp", "usr", "var"].map
      (fun name => ([name.toList], .directory))
    ++ ["null", "stdin"].map fun name => (["dev".toList, name.toList], .device)

/-- The way from the root of the system to the working directory.  As its names hold a slash, no
path can spell them. -/
def workplace : List Text := [['/'], ['/']]

/-- What is found from a working directory that holds files and, where there are no bytes,
directories of the given names. -/
def ofNames (names : List (Text × Option ByteArray)) : Files := fun path =>
  if path = [] then .nothing
  else if maxPath < path.byteLength then .nameTooLong
  else
    let held := names.map fun (name, bytes) =>
      (workplace ++ parts name, match bytes with
        | some bytes => Found.file bytes
        | none => .directory)
    walk (held ++ system) (if path.head? = some '/' then [] else workplace) (path.splitOn '/')

end Files

/-- The text that bytes write in UTF-8. -/
def Text.ofBytes? (bytes : ByteArray) : Option Text := (String.fromUTF8? bytes).map String.toList

end BlockLayout
