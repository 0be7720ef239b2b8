import NinjaPlan.Files.Access
import NinjaPlan.Text.Quoted

/-! # Replacing a file at once

A new content goes to a temporary file in the directory of the file to be replaced; when it is
complete, the temporary file is renamed over the old one.  Whatever step fails, the temporary
file is removed and the old file is left as it was.

`replace` performs the steps and records every tree on the way, so that what an observer may see
in between is part of the answer.  A `Fault` makes a step fail that would have succeeded. -/

namespace NinjaPlan.FileTree

/-- The steps of a replacement. -/
inductive ReplaceStep where
  | create
  | write
  | flush
  | setPermissions
  | sync
  | rename
deriving DecidableEq

/-- A step that fails, and how: a failing write has written some bytes before. -/
structure Fault where
  step : ReplaceStep
  cause : IoError
  written : Nat := 0
deriving DecidableEq

/-- Why a file could not be replaced. -/
inductive ReplaceError where
  /-- No temporary file could be created in the directory. -/
  | create (dir : Path) (temporary : Path) (cause : IoError)
  /-- The temporary file could not be completed. -/
  | fill (temporary : Path) (cause : IoError)
  /-- The temporary file could not be renamed. -/
  | rename (path : Path) (cause : IoError)
deriving DecidableEq

/-- The messages of the error and of its causes, outermost first. -/
def ReplaceError.chain : ReplaceError → List Text
  | create dir temporary cause =>
    ["create temporary file in " ++ dir.text,
      cause.message ++ " at path " ++ Text.quoted temporary.text]
  | fill temporary cause => ["write temporary file " ++ temporary.text, cause.message]
  | rename path cause => ["replace " ++ path.text, cause.message]

/-! ### The temporary file -/

def privatePermissions : Nat := 0o600

def readablePermissions : Nat := 0o644

/-- What the name of every temporary file begins with. -/
def temporaryStart : Text := ".ninjaconf."

/-- What the name of every temporary file ends with. -/
def temporaryEnd : Text := ".tmp"

/-- The name of the temporary file with a number, in six digits. -/
def temporaryName (n : Nat) : Name :=
  let digits := Text.ofNat n
  Utf8.encode (temporaryStart ++ (List.replicate (6 - digits.length) '0' ++ digits) ++ temporaryEnd)

/-- The first name from number `n` on that is not in use in a directory, looked for among `fuel`
of them. -/
def unusedName (t : FileTree) (dir : Location) : Nat → Nat → Name
  | 0, n => temporaryName n
  | fuel + 1, n =>
    if t.get? (temporaryName n :: dir) = none then temporaryName n
    else t.unusedName dir fuel (n + 1)

/-- A name for the temporary file.  One of the names tried is not in use, for they are different
and there are more of them than files. -/
def freshName (t : FileTree) (dir : Location) : Name := t.unusedName dir (t.entries.length + 1) 0

/-- The directory of a path's file, as the path has it. -/
def directoryOf (p : Path) : Path :=
  match p.parent with
  | some dir => if dir.text = [] then "." else dir
  | none => "."

def joinName (dir name : Bytes) : Bytes :=
  if dir.getLast? = some slash then dir ++ name else dir ++ slash :: name

/-- The bytes of the path of the temporary file `name` in the directory `dir`. -/
def temporaryBytes (here : Location) (dir : Path) (name : Name) : Bytes :=
  joinName (if dir.isAbsolute then dir.bytes else joinName (Location.path here) dir.bytes) name

/-- The path of the temporary file as messages show it; bytes that are no text are replaced. -/
def temporaryPath (here : Location) (dir : Path) (name : Name) : Path :=
  ⟨Utf8.decodeLossy (temporaryBytes here dir name)⟩

/-! ### The steps -/

/-- The place of the entry that a rename to a path would put there. -/
def renameTarget (t : FileTree) (here : Location) (path : Bytes) : Except IoError Location :=
  if 0 ∈ path then .error (.os .invalidArgument)
  else
    match t.locateParent here path with
    | .error e => .error (.os e)
    | .ok (dir, .name name slashed) =>
      if slashed then .error (.os .notDirectory)
      else if t.get? (name :: dir) = some .directory then .error (.os .isDirectory)
      else .ok (name :: dir)
    | .ok _ => .error (.os .busy)

/-- The directory of the temporary file. -/
def openDirectory (t : FileTree) (here : Location) (dir : Path) : Except IoError Location :=
  match t.find here dir.bytes with
  | .error e => .error e
  | .ok loc => if t.get? loc = some .directory then .ok loc else .error (.os .notDirectory)

/-- The directory in which a temporary file with a given path can be created. -/
def openFor (t : FileTree) (here : Location) (dir : Path) (temporary : Bytes) :
    Except IoError Location :=
  if 0 ∈ temporary then .error .nulInFileName
  else if pathLimit ≤ temporary.length then .error (.os .nameTooLong)
  else t.openDirectory here dir

/-- The error with which a step fails, if it does. -/
def faultAt (fault : Option Fault) (step : ReplaceStep) : Option IoError :=
  match fault with
  | none => none
  | some f => if f.step = step then some f.cause else none

/-- The trees on the way of a replacement, in order, with the tree it ends in and the error that
it ends with. -/
structure Replacement where
  passed : List FileTree
  final : FileTree
  error : Option ReplaceError

/-- The part of the content that is in the temporary file when it is last written. -/
def writtenPart (fault : Option Fault) (content : Bytes) : Bytes :=
  match fault with
  | some ⟨.write, _, written⟩ => content.take written
  | _ => content

/-- The first step with a fault among those up to the last change of the temporary file. -/
def fillFault (fault : Option Fault) : Option IoError :=
  [ReplaceStep.write, .flush, .setPermissions].findSome? (faultAt fault)

/-- Replaces the file at a path by one with the given content. -/
def replace (t : FileTree) (here : Location) (path : Path) (content : Bytes)
    (fault : Option Fault := none) : Replacement :=
  let dir := directoryOf path
  let abandon (passed : List FileTree) (e : ReplaceError) : Replacement := ⟨passed, t, some e⟩
  match t.openFor here dir (temporaryBytes here dir (temporaryName 0)) with
  | .error e => abandon [] (.create dir (temporaryPath here dir (temporaryName 0)) e)
  | .ok dirLoc =>
    let name := t.freshName dirLoc
    let temporary := temporaryPath here dir name
    match faultAt fault .create with
    | some e => abandon [] (.create dir temporary e)
    | none =>
      let place := name :: dirLoc
      let created := t.put place (.file [] privatePermissions)
      let filled := created.put place (.file (writtenPart fault content) privatePermissions)
      match fillFault fault with
      | some e => ⟨[created, filled], filled.erase place, some (.fill temporary e)⟩
      | none =>
        let readable := filled.put place (.file content readablePermissions)
        match faultAt fault .sync with
        | some e =>
          ⟨[created, filled, readable], readable.erase place, some (.fill temporary e)⟩
        | none =>
          match (faultAt fault .rename).elim (readable.renameTarget here path.bytes) .error with
          | .error e => ⟨[created, filled, readable], readable.erase place, some (.rename path e)⟩
          | .ok target =>
            ⟨[created, filled, readable],
              (readable.erase place).put target (.file content readablePermissions), none⟩

end NinjaPlan.FileTree
