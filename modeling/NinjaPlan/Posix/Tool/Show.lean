import NinjaPlan.Posix.Files.Arrange
import NinjaPlan.Posix.Files.Mode
import NinjaPlan.Posix.Tool.Basic

/-! # Showing entries

The tools `ls`, `readlink`, `realpath`, `stat` and `which`. -/

namespace NinjaPlan.Tool
namespace Show

/-! ### Listings -/

/-- The mark behind the name of an entry. -/
def mark (call : Call) (e : Entry) : Text :=
  if !(call.has 'F' || call.has 'p') then []
  else
    match e with
    | .directory => ['/']
    | .link _ => if call.has 'F' then ['@'] else []
    | .file _ permissions => if call.has 'F' && permissions &&& 0o111 != 0 then ['*'] else []
    | .device _ => []

/-- The number of bytes that an entry has. -/
def size (e : Entry) : Nat :=
  match e with
  | .file content _ => content.length
  | .link target => target.length
  | _ => 0

def ordered (call : Call) (entries : List (Text × Entry)) : List (Text × Entry) :=
  let byName := entries.mergeSort fun a b => before a.1 b.1
  let sorted := if call.has 'S' then byName.mergeSort fun a b => size b.2 ≤ size a.2 else byName
  if call.has 'r' then sorted.reverse else sorted

def listing (call : Call) (entries : List (Text × Entry)) : Text :=
  let names := (ordered call entries).map fun (name, e) => name ++ mark call e
  if call.has 'm' && !names.isEmpty then [',', ' '].intercalate names ++ ['\n'] else unlines names

def listed (call : Call) (t : FileTree) (loc : Location) : List (Text × Entry) :=
  let entries := (t.children loc).map fun (name, e) => (Octets.ofBytes name, e)
  if call.has 'a' then (['.'], .directory) :: (['.', '.'], .directory) :: entries
  else if call.has 'A' then entries
  else entries.filter fun e => e.1.head? != some '.'

/-- The listings of a directory and, if wanted, of those in it, each with the path of its
directory; the number bounds how deep they are. -/
def listings (call : Call) (t : FileTree) : Nat → Text → Location → List (Text × Text)
  | 0, _, _ => []
  | fuel + 1, path, loc =>
    let entries := listed call t loc
    let inner := if !call.has 'R' then []
      else (ordered call entries).flatMap fun (name, e) =>
        if e = .directory ∧ name ≠ ['.'] ∧ name ≠ ['.', '.'] then
          let slashed := if path.getLast? = some '/' then path else path ++ ['/']
          listings call t fuel (slashed ++ name) (Octets.toBytes name :: loc)
        else []
    (path, listing call entries) :: inner

/-- The entries that operands name, with their locations; says which of them are not there. -/
def findOperands (call : Call) : List Text → Process (List (Text × Location × Entry) × Bool)
  | [] => return ([], true)
  | path :: rest => do
    let t ← Process.tree
    let here ← Process.directory
    let bytes := Octets.toBytes path
    let named := t.named here bytes
    let takesLinks := !(call.has 'd' || call.has 'F') || call.has 'H' || call.has 'L'
    let target := t.target here bytes
    let found : Except OsError (Location × Entry) := match takesLinks, named, target with
      | true, _, .ok (loc, .directory) => .ok (loc, .directory)
      | _, named, _ => named
    match found with
    | .ok entry =>
      let (others, all) ← findOperands call rest
      return ((path, entry) :: others, all)
    | .error e =>
      complain call.name ("cannot access " ++ quotedPath path ++ ": " ++ e.description)
      return ((← findOperands call rest).1, false)

/-! ### Paths -/

/-- How much of a path must be there. -/
inductive Presence where
  | all
  | allButLast
  | nothing
deriving DecidableEq

def realPath (t : FileTree) (here : Location) (presence : Presence) (path : Text) :
    Except OsError Text :=
  match t.locate here (Octets.toBytes path) with
  | .error e => .error e
  | .ok (.found loc) =>
    if (t.get? loc).isNone then .error .notFound else .ok (Octets.ofBytes (Location.path loc))
  | .ok (.missing above name rest) =>
    let whole := rest.foldl (fun (loc : Location) segment =>
      if segment = [] ∨ segment = [dot] then loc
      else if segment = [dot, dot] then loc.tail
      else segment :: loc) (name :: above)
    if presence = .nothing ∨ (presence = .allButLast ∧ rest.all List.isEmpty) then
      .ok (Octets.ofBytes (Location.path whole))
    else .error .notFound

def isProgram (t : FileTree) (here : Location) (path : Text) : Bool :=
  match t.target here (Octets.toBytes path) with
  | .ok (_, .file _ permissions) => permissions &&& 0o111 != 0
  | _ => false

def kindName (e : Entry) : Text :=
  match e with
  | .file content _ => if content.isEmpty then "regular empty file" else "regular file"
  | .directory => "directory"
  | .link _ => "symbolic link"
  | .device _ => "character special file"

/-- What a letter of a format tells of an entry. -/
def detail (path : Text) (e : Entry) (letter : Char) : Text :=
  match letter with
  | 'n' => path
  | 's' => Text.ofNat (size e)
  | 'F' => kindName e
  | 'a' => Permissions.octal (match e with
    | .file _ permissions => permissions
    | .directory => 0o755
    | .link _ => 0o777
    | .device _ => 0o666)
  | 'u' | 'g' => ['0']
  | 'U' | 'G' => "root"
  | '%' => ['%']
  | _ => ['?']

/-- What a format tells of an entry. -/
def details (path : Text) (e : Entry) : Text → Text
  | [] => []
  | '%' :: letter :: rest => detail path e letter ++ details path e rest
  | c :: rest => c :: details path e rest

end Show

/-- Lists directories. -/
def ls : Program := fun _ words => do
  let shape : Shape :=
    { letters := "1aAbBcCdDfFgGhHiI:klLmnNopqQrRsStT:uUvw:xXZ"
      names := [("all", 'a'), ("almost-all", 'A'), ("directory", 'd'), ("reverse", 'r'),
        ("recursive", 'R'), ("size", 's'), ("classify", 'F'), ("literal", 'N')]
      status := 2 }
  let call ← readCall shape words
  let operands := if call.operands.isEmpty then [['.']] else call.operands
  let (found, all) ← Show.findOperands call operands
  let (directories, others) := found.partition fun f =>
    f.2.2 == .directory && !call.has 'd'
  emit call.name (Show.listing call (others.map fun f => (f.1, f.2.2)))
  let t ← Process.tree
  let ordered := Show.ordered call (directories.map fun f => (f.1, f.2.2))
  let inOrder := ordered.filterMap fun (path, _) =>
    (directories.find? fun f => f.1 == path).map fun f => (path, f.2.1)
  let listings := inOrder.flatMap fun (path, loc) =>
    Show.listings call t (t.entries.length + 1) path loc
  let headed := 1 < operands.length || call.has 'R'
  let texts := listings.map fun (path, listing) =>
    if headed then path ++ ":\n" ++ listing else listing
  let gap : Text := if others.isEmpty || texts.isEmpty then [] else ['\n']
  emit call.name (gap ++ ['\n'].intercalate texts)
  return if all then 0 else 2

/-- Shows the paths in links, or the real paths that paths lead to. -/
def readlink : Program := fun _ words => do
  let shape : Shape :=
    { letters := "femnqsvz"
      names := [("canonicalize", 'f'), ("canonicalize-existing", 'e'),
        ("canonicalize-missing", 'm'), ("no-newline", 'n'), ("zero", 'z')] }
  let call ← readCall shape words
  if call.operands.isEmpty then misuse call.name "missing operand"
  let single := call.operands.length = 1
  if call.has 'n' ∧ !single then
    complain call.name "ignoring --no-newline with multiple arguments"
  let ending : Text := if call.has 'n' ∧ single then []
    else if call.has 'z' then ['\x00'] else ['\n']
  let presence? : Option Show.Presence := call.options.reverse.findSome? fun o => match o.1 with
    | 'f' => some .allButLast
    | 'e' => some .all
    | 'm' => some .nothing
    | _ => none
  let all ← forOperands (fun path => do
    let t ← Process.tree
    let here ← Process.directory
    let shown : Except OsError Text := match presence? with
      | some presence => Show.realPath t here presence path
      | none =>
        match t.named here (Octets.toBytes path) with
        | .ok (_, .link target) => .ok (Octets.ofBytes target)
        | .ok _ => .error .invalidArgument
        | .error e => .error e
    match shown with
    | .ok s =>
      emit call.name (s ++ ending)
      return true
    | .error e =>
      if call.has 'v' then complain call.name (shownPath path ++ ": " ++ e.description)
      return false) call.operands
  return statusOf all

/-- Shows the real paths that paths lead to. -/
def realpath : Program := fun _ words => do
  let shape : Shape :=
    { letters := "emqsLPz"
      names := [("canonicalize-existing", 'e'), ("canonicalize-missing", 'm'), ("quiet", 'q'),
        ("strip", 's'), ("no-symlinks", 's'), ("zero", 'z')] }
  let call ← readCall shape words
  if call.operands.isEmpty then misuse call.name "missing operand"
  let presence : Show.Presence :=
    if call.has 'm' then .nothing else if call.has 'e' then .all else .allButLast
  let all ← forOperands (fun path => do
    match Show.realPath (← Process.tree) (← Process.directory) presence path with
    | .ok s =>
      emit call.name (s ++ if call.has 'z' then ['\x00'] else ['\n'])
      return true
    | .error e =>
      if !call.has 'q' then complain call.name (shownPath path ++ ": " ++ e.description)
      return false) call.operands
  return statusOf all

/-- Shows what is known of entries, as a format asks for it. -/
def stat : Program := fun _ words => do
  let call ← readCall { letters := "Lc:", names := [("format", 'c'), ("dereference", 'L')] } words
  if call.operands.isEmpty then misuse call.name "missing operand"
  let all ← forOperands (fun path => do
    let t ← Process.tree
    let here ← Process.directory
    let bytes := Octets.toBytes path
    match (if call.has 'L' then t.target here bytes else t.named here bytes) with
    | .ok (_, e) =>
      emit call.name (Show.details path e ((call.word? 'c').getD "%n") ++ ['\n'])
      return true
    | .error e =>
      complain call.name ("cannot statx " ++ quotedPath path ++ ": " ++ e.description)
      return false) call.operands
  return statusOf all

/-- Shows the paths of programs. -/
def which : Program := fun _ words => do
  let call ← readCall { letters := "as" } words
  let searchPath := (← Process.environmentValue? "PATH").getD []
  let all ← forOperands (fun name => do
    let t ← Process.tree
    let here ← Process.directory
    let candidates := if name.contains '/' then [name]
      else (Text.pieces ':' searchPath).map fun dir =>
        (if dir.isEmpty then ['.'] else dir) ++ '/' :: name
    let found := candidates.filter (Show.isProgram t here)
    if !call.has 's' then
      emit call.name (unlines (if call.has 'a' then found else found.take 1))
    return !found.isEmpty) call.operands
  return if all ∧ !call.operands.isEmpty then 0 else 1

end NinjaPlan.Tool
