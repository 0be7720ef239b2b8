import NinjaPlan.Posix.Process.Machine

/-! # Executing files

A process becomes another program by executing a file.  A file holds a program of the machine, or
names an interpreter in its first line that is executed in its place, with the file as an argument;
any other file cannot be executed.

Programs are named in their files behind a mark.  What each of them does is a parameter. -/

namespace NinjaPlan

/-- Runs the program at a path, with its name and its arguments, in place of the process.  It
returns only if that is impossible. -/
abbrev Execute := Text → List Text → Process OsError

/-- What a program does with its name and its arguments; it gives a status, and may execute
others. -/
abbrev Program := Execute → List Text → Process Nat

namespace Execute

/-- The mark at the start of a file that holds a program. -/
def mark : Text := "\x7fELF"

/-- The content of a file that holds the program of a name. -/
def programFile (name : Text) : Bytes := Octets.toBytes (mark ++ name)

/-- The number of octets at the start of a file that are looked at. -/
def headLength : Nat := 256

/-- Whether an octet separates the words of a first line. -/
def isSeparator (c : Char) : Bool := c == ' ' || c == '\t'

/-- The interpreter that a file asks for, and the argument that it is given. -/
structure Interpreter where
  path : Text
  argument : Option Text := none

/-- The interpreter in a first line that has been cut out. -/
def interpreterIn (line : Text) : Option Interpreter :=
  let line := ((line.reverse.dropWhile isSeparator).reverse).dropWhile isSeparator
  let path := line.takeWhile fun c => !isSeparator c && c != '\x00'
  let behind := line.drop path.length
  if line.isEmpty then none
  else if behind.head?.any isSeparator then
    some ⟨path, some ((behind.dropWhile isSeparator).takeWhile (· != '\x00'))⟩
  else some ⟨path, none⟩

/-- The interpreter that a file asks for, if it asks for one.  A line that is too long to be seen
whole must show that the path is. -/
def interpreter? (content : Text) : Option Interpreter :=
  match content.take headLength with
  | '#' :: '!' :: rest =>
    if rest.contains '\n' then interpreterIn (rest.takeWhile (· != '\n'))
    else
      let room := headLength - 3
      let seen := (rest ++ List.replicate (room - rest.length) '\x00').take room
      let name := seen.dropWhile isSeparator
      if name.isEmpty ∨ !name.any (fun c => isSeparator c || c == '\x00') then none
      else interpreterIn seen
  | _ => none

/-- The length that an argument of a program must not reach. -/
def argumentLimit : Nat := 0x20000

/-- The greatest number of interpreters that are executed for each other. -/
def interpreterLimit : Nat := 5

/-- The content of the file at a path, if it may be executed. -/
def executable (t : FileTree) (here : Location) (path : Text) : Except OsError Text :=
  match t.entryAt here (Octets.toBytes path) with
  | .ok (.file content permissions) =>
    if permissions &&& 0o111 = 0 then .error .permissionDenied else .ok (Octets.ofBytes content)
  | .ok _ => .error .permissionDenied
  | .error (.os e) => .error e
  | .error _ => .error .notFound

/-- The program that executing a path comes to, with its arguments. -/
def resolve (t : FileTree) (here : Location) :
    Nat → Text → List Text → Except OsError (Text × List Text)
  | depth, path, arguments =>
    match executable t here path with
    | .error e => .error e
    | .ok content =>
      if arguments.any fun a => argumentLimit ≤ a.length + 1 then .error .argumentsTooLong
      else if mark.isPrefixOf content then .ok (content.drop mark.length, arguments)
      else
        match interpreter? content, depth with
        | none, _ => .error .execFormat
        | some _, 0 => .error .tooManyLinks
        | some i, depth + 1 =>
          resolve t here depth i.path
            (i.path :: i.argument.toList ++ path :: arguments.drop 1)

/-- Executes files that hold the given programs; the number bounds how often programs execute
others. -/
def withPrograms (programs : Text → Option Program) : Nat → Execute
  | 0, _, _ => return .argumentsTooLong
  | fuel + 1, path, arguments => do
    match resolve (← Process.tree) (← Process.directory) interpreterLimit path arguments with
    | .error e => return e
    | .ok (name, arguments) =>
      match programs name with
      | none => return .execFormat
      | some program =>
        let status ← program (withPrograms programs fuel) arguments
        Process.exit (status % 256)

/-- Executes the program of a name, looked for in directories unless the name is a path. -/
def search (execute : Execute) (name : Text) (arguments : List Text) :
    OsError → List Text → Process OsError
  | e, [] => return e
  | e, dir :: dirs => do
    let path := if dir.isEmpty then name else dir ++ '/' :: name
    match ← execute path arguments with
    | .permissionDenied => search execute name arguments .permissionDenied dirs
    | .notFound | .notDirectory => search execute name arguments e dirs
    | failure => return failure

/-- Executes the program of a name, looked for in the directories of a search path unless the name
is a path. -/
def named (execute : Execute) (searchPath name : Text) (arguments : List Text) :
    Process OsError :=
  if name.contains '/' then execute name arguments
  else if name.isEmpty then return .notFound
  else search execute name arguments .notFound (Text.pieces ':' searchPath)

end Execute
end NinjaPlan
