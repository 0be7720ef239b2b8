import NinjaPlan.Posix.Files.Arrange
import NinjaPlan.Posix.Files.Mode
import NinjaPlan.Posix.Tool.Basic

/-! # Making and removing entries

The tools `mkdir`, `rmdir`, `rm` and `touch`. -/

namespace NinjaPlan.Tool
namespace Directory

/-! ### Making directories -/

/-- The starts of a path that name the directories on its way, the whole path last; the number
bounds how many there are. -/
def startsFrom (before : Text) : List Text → List Text
  | [] => []
  | segment :: rest =>
    let start := before ++ segment
    let others := startsFrom (start ++ ['/']) rest
    if segment.isEmpty ∨ segment = ['.'] then others else start :: others

/-- The starts of a path that name the directories on its way, the whole path last. -/
def starts (path : Text) : List Text := startsFrom [] (Text.pieces '/' path)

/-- Makes a directory; says what is wrong if that is impossible, and tells whether it is not. -/
def make (call : Call) (path : Text) : Process Bool := do
  let made ← changeFiles call.name ("cannot create directory " ++ quoted path) fun t here =>
    match t.makeDirectory here (Octets.toBytes path) with
    | .ok t => .ok t
    | .error (.os e) => .error e
    | .error _ => .error .notFound
  if made && call.has 'v' then
    emit call.name (call.name ++ ": created directory " ++ quotedPath path ++ "\n")
  return made

/-- Makes directories that are missing, each behind the one that it is in. -/
def makeAll (call : Call) : List Text → Process Bool
  | [] => return true
  | path :: rest => do
    let t ← Process.tree
    let here ← Process.directory
    let bytes := Octets.toBytes path
    if (t.directoryAt here bytes).isSome then makeAll call rest
    else if (t.named here bytes).isOk ∧ !rest.isEmpty then
      complain call.name ("cannot create directory " ++ quoted path ++ ": Not a directory")
      return false
    else if ← make call path then makeAll call rest
    else return false

/-! ### Removing -/

/-- The directories that a path goes through, the path first. -/
def upwards (path : Text) : List Text := (starts path).reverse

/-- Removes directories, each in the next one. -/
def removeUpwards (call : Call) (isFirst : Bool) : List Text → Process Bool
  | [] => return true
  | path :: rest => do
    if call.has 'v' then
      emit call.name (call.name ++ ": removing directory, " ++ quotedPath path ++ "\n")
    let t ← Process.tree
    let here ← Process.directory
    match t.removeDirectory here (Octets.toBytes path), call.has 'I' with
    | .error .notEmpty, true => return true
    | .error e, _ =>
      let what := if isFirst then "failed to remove " else "failed to remove directory "
      complain call.name (what.toList ++ quotedPath path ++ ": " ++ e.description)
      return false
    | .ok t, _ =>
      Process.setTree t
      removeUpwards call false rest

/-- The entries below a location, the deeper ones first, with their paths behind the given one. -/
def below (t : FileTree) (path : Text) (loc : Location) : List (Text × Entry) :=
  (t.contents loc).reverse.map fun (name, e) => (path ++ '/' :: Octets.ofBytes name, e)

def sayRemoved (call : Call) (path : Text) (e : Entry) : Process Unit := do
  if call.has 'v' then
    let what : Text := if e = .directory then "removed directory " else "removed "
    emit call.name (what ++ quotedPath path ++ "\n")

def endsInDots (path : Text) : Bool :=
  match (Text.pieces '/' path).reverse.dropWhile List.isEmpty with
  | last :: _ => last == ['.'] || last == ['.', '.']
  | [] => false

/-- Removes what a path names; says what is wrong if that is impossible. -/
def remove (call : Call) (path : Text) : Process Bool := do
  let t ← Process.tree
  let here ← Process.directory
  let bytes := Octets.toBytes path
  let recursive := call.has 'r' || call.has 'R'
  let refuse (e : OsError) : Process Bool := do
    complain call.name ("cannot remove " ++ quotedPath path ++ ": " ++ e.description)
    return false
  let skip : Process Bool := do
    complain call.name ("refusing to remove '.' or '..' directory: skipping " ++ quotedPath path)
    return false
  match t.named here bytes with
  | .error e =>
    if call.has 'f' ∧ (e = .notFound ∨ e = .notDirectory) then return true else refuse e
  | .ok ([], _) =>
    if !recursive then refuse .isDirectory
    else if endsInDots path then skip
    else
      complain call.name ("it is dangerous to operate recursively on " ++ quotedPath path)
      complain call.name "use --no-preserve-root to override this failsafe"
      return false
  | .ok (loc, .directory) =>
    if recursive then
      if endsInDots path then skip
      else if ((t.locateParent here bytes).toOption.bind fun p => match p with
          | (dir, .name name _) => t.get? (name :: dir)
          | _ => none) != some .directory then refuse .notDirectory
      else
        Process.setTree (t.eraseBelow loc)
        (below t path loc).forM fun (path, e) => sayRemoved call path e
        sayRemoved call path .directory
        return true
    else if call.has 'd' then
      match t.removeDirectory here bytes with
      | .ok t =>
        Process.setTree t
        sayRemoved call path .directory
        return true
      | .error e => refuse e
    else refuse .isDirectory
  | .ok (_, e) =>
    match t.removeFile here bytes with
    | .ok t =>
      Process.setTree t
      sayRemoved call path e
      return true
    | .error e => refuse e

end Directory

/-- Makes directories. -/
def mkdir : Program := fun _ words => do
  let shape : Shape :=
    { letters := "pvm:Z", names := [("parents", 'p'), ("verbose", 'v'), ("mode", 'm')] }
  let call ← readCall shape words
  if call.operands.isEmpty then misuse call.name "missing operand"
  match call.word? 'm' with
  | some mode =>
    if (Permissions.change? 0o022 true 0o777 mode).isNone then
      failWith 1 call.name ("invalid mode " ++ quoted mode)
  | none => pure ()
  let all ← forOperands (fun path =>
    if call.has 'p' ∧ path ≠ [] then Directory.makeAll call (Directory.starts path)
    else Directory.make call path) call.operands
  return statusOf all

/-- Removes empty directories. -/
def rmdir : Program := fun _ words => do
  let shape : Shape :=
    { letters := "pvI"
      names := [("parents", 'p'), ("verbose", 'v'), ("ignore-fail-on-non-empty", 'I')] }
  let call ← readCall shape words
  if call.operands.isEmpty then misuse call.name "missing operand"
  let all ← forOperands (fun path =>
    Directory.removeUpwards call true
      (if call.has 'p' then Directory.upwards path else [path])) call.operands
  return statusOf all

/-- Removes entries. -/
def rm : Program := fun _ words => do
  let shape : Shape :=
    { letters := "rRfvdiI"
      names := [("recursive", 'r'), ("force", 'f'), ("verbose", 'v'), ("dir", 'd')] }
  let call ← readCall shape words
  if call.operands.isEmpty ∧ !call.has 'f' then misuse call.name "missing operand"
  let all ← forOperands (Directory.remove call) call.operands
  return statusOf all

/-- Makes files that are missing. -/
def touch : Program := fun _ words => do
  let shape : Shape :=
    { letters := "acmhfd:r:t:"
      names := [("no-create", 'c'), ("date", 'd'), ("reference", 'r'), ("no-dereference", 'h')] }
  let call ← readCall shape words
  if call.operands.isEmpty then misuse call.name "missing file operand"
  let all ← forOperands (fun path => do
    let t ← Process.tree
    let here ← Process.directory
    let refuse (attempt : Text) (e : OsError) : Process Bool := do
      complain call.name (attempt ++ quotedPath path ++ ": " ++ e.description)
      return false
    match t.target here (Octets.toBytes path) with
    | .ok _ => return true
    | .error .notFound =>
      if call.has 'c' then return true
      match ← Process.openPath path { access := { writes := true }, creates := true } with
      | .ok _ => return true
      | .error .isDirectory => refuse "setting times of " .notFound
      | .error e => refuse "cannot touch " e
    | .error e =>
      refuse (if path.getLast? = some '/' then "setting times of " else "cannot touch ") e)
    call.operands
  return statusOf all

end NinjaPlan.Tool
