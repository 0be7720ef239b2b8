import NinjaPlan.Posix.Files.Arrange
import NinjaPlan.Posix.Files.Mode
import NinjaPlan.Posix.Tool.Basic

/-! # Copying, moving and linking

The tools `cp`, `mv` and `ln` give entries to other paths: to the path that is named last, or to
names of their own in the directory there.  `chmod` changes permissions. -/

namespace NinjaPlan.Tool
namespace Copy

def inDirectory (dir name : Text) : Text :=
  if dir.getLast? = some '/' then dir ++ name else dir ++ '/' :: name

def lastName (path : Text) : Text :=
  match (Text.pieces '/' path).reverse.dropWhile List.isEmpty with
  | last :: _ => last
  | [] => ['/']

/-- What is to go where: pairs of paths. -/
abbrev Plan := List (Text × Text)

/-- Which paths go where, in a call with at least one operand.  The option `T` says that the last
path is no directory, `t` names a directory; a link to a directory counts as one if wanted. -/
def plan (call : Call) (takesLink : Bool) : Process Plan := do
  let isDirectory (path : Text) : Process (Except OsError Bool) := do
    let t ← Process.tree
    let here ← Process.directory
    let bytes := Octets.toBytes path
    match t.named here bytes, t.target here bytes with
    | .ok (_, .link _), .ok (_, e) => return .ok (takesLink && e == .directory)
    | _, .ok (_, e) => return .ok (e == .directory)
    | _, .error e => return .error e
  let into (dir : Text) (paths : List Text) : Plan :=
    paths.map fun path => (path, inDirectory dir (lastName path))
  let refuse (dir : Text) (e : OsError) : Process Plan :=
    failWith 1 call.name ("target " ++ quotedPath dir ++ ": " ++ e.description)
  match call.word? 't', call.operands with
  | some dir, paths =>
    match ← isDirectory dir with
    | .ok true => return into dir paths
    | .ok false => refuse dir .notDirectory
    | .error e => refuse dir e
  | none, [path] => return into ['.'] [path]
  | none, operands =>
    let last := (operands.getLast?).getD []
    let paths := operands.dropLast
    match call.has 'T', ← isDirectory last, paths with
    | false, .ok true, _ => return into last paths
    | _, _, [path] => return [(path, last)]
    | true, _, _ => misuse call.name ("extra operand " ++ quotedPath ((operands.drop 2).headD []))
    | false, .ok false, _ => refuse last .notDirectory
    | false, .error e, _ => refuse last e

/-- Says that something is wrong. -/
def refuse (call : Call) (message : Text) : Process Bool := do
  complain call.name message
  return false

/-- Says that an operation failed. -/
def refuseWith (call : Call) (attempt : Text) (e : OsError) : Process Bool :=
  refuse call (attempt ++ ": " ++ e.description)

/-- The permissions of a new file that is made after another. -/
def permissionsOf (e : Entry) : Nat :=
  match e with
  | .file _ permissions => Permissions.without permissions 0o022
  | _ => FileTree.defaultPermissions

/-- Puts the content of an entry at a path into the file at another one, which is made if it is
missing. -/
def copyContent (call : Call) (e : Entry) (path dest : Text) : Process Bool := do
  let t ← Process.tree
  let here ← Process.directory
  let content ← match e with
    | .file content _ => pure (Octets.ofBytes content)
    | _ => pure ((← readInput path).toOption.getD [])
  let isNew := !(t.target here (Octets.toBytes dest)).isOk
  let request : Process.OpenRequest :=
    { access := { writes := true }, creates := true, truncates := true }
  match ← Process.openPath dest request with
  | .error e =>
    let e := if e = .isDirectory ∧ isNew then .notDirectory else e
    refuseWith call ("cannot create regular file " ++ quotedPath dest) e
  | .ok n =>
    let _ ← Process.writeFile n content
    let t ← Process.tree
    match isNew, t.target here (Octets.toBytes dest) with
    | true, .ok (loc, .file content _) =>
      Process.setTree (t.put loc (.file content (permissionsOf e)))
    | _, _ => pure ()
    return true

/-- The ways in which paths are shown when something is done with both. -/
def arrow (path dest : Text) : Text := quotedPath path ++ " -> " ++ quotedPath dest

/-- Copies an entry to a path that leads to no entry, or to one of the same kind; copies a
directory with all that is in it.  The number bounds how deep directories are. -/
def copyEntry (call : Call) : Nat → Bool → Text → Text → Process Bool
  | 0, _, _, _ => return true
  | fuel + 1, isInner, path, dest => do
    let t ← Process.tree
    let here ← Process.directory
    let bytes := Octets.toBytes path
    let recursive := call.has 'r' || call.has 'R' || call.has 'a'
    let keepsLinks := !call.has 'L' && (recursive || call.has 'P' || call.has 'd') &&
      (isInner || !call.has 'H')
    match (if keepsLinks then t.named here bytes else t.target here bytes) with
    | .error e => refuseWith call ("cannot stat " ++ quotedPath path) e
    | .ok (loc, e) =>
      if e = .directory ∧ !recursive then
        refuse call ("-r not specified; omitting directory " ++ quotedPath path)
      else
        let say : Process Unit :=
          if call.has 'v' then emit call.name (arrow path dest ++ "\n") else pure ()
        let inner : Process Bool := forOperands (fun name =>
            copyEntry call fuel true (inDirectory path name) (inDirectory dest name))
          ((t.items loc).map fun i => Octets.ofBytes i.name)
        let target := t.target here (Octets.toBytes dest)
        match t.named here (Octets.toBytes dest), target with
        | .error .notDirectory, _ =>
          let attempt : Text :=
            if dest.getLast? = some '/' then "cannot stat " else "cannot create regular file "
          refuseWith call (attempt ++ quotedPath dest) .notDirectory
        | _, .ok (place, old) =>
          if place = loc then
            refuse call (quotedPath path ++ " and " ++ quotedPath dest ++ " are the same file")
          else if call.has 'n' ∧ old ≠ .directory then return true
          else
            match e, old with
            | .directory, .directory =>
              if loc.isSuffixOf place then
                refuse call ("cannot copy a directory, " ++ quotedPath path ++ ", into itself, " ++
                  quotedPath dest)
              else inner
            | .directory, _ =>
              refuse call ("cannot overwrite non-directory " ++ quotedPath dest ++
                " with directory " ++ quotedPath path)
            | _, .directory =>
              refuse call ("cannot overwrite directory " ++ quotedPath dest ++
                " with non-directory")
            | .link _, _ =>
              say
              Process.setTree (t.put place e)
              return true
            | _, _ =>
              say
              copyContent call e path dest
        | .ok _, .error _ =>
          refuse call ("not writing through dangling symlink " ++ quotedPath dest)
        | .error _, .error _ =>
          match e with
          | .directory =>
            match t.makeDirectory here (Octets.toBytes dest) with
            | .error (.os e) => refuseWith call ("cannot create directory " ++ quotedPath dest) e
            | .error _ => refuseWith call ("cannot create directory " ++ quotedPath dest) .notFound
            | .ok made =>
              let place? := (made.target here (Octets.toBytes dest)).toOption.map Prod.fst
              if place?.any loc.isSuffixOf then
                refuse call ("cannot copy a directory, " ++ quotedPath path ++ ", into itself, " ++
                  quotedPath dest)
              else
                Process.setTree made
                say
                inner
          | .link link =>
            say
            changeFiles call.name ("cannot create symbolic link " ++ quotedPath dest) fun t here =>
              match t.makeLink here (Octets.toBytes dest) link with
              | .ok t => .ok t
              | .error (.os e) => .error e
              | .error _ => .error .notFound
          | _ =>
            say
            copyContent call e path dest

def moveEntry (call : Call) (path dest : Text) : Process Bool := do
  let t ← Process.tree
  let here ← Process.directory
  match t.named here (Octets.toBytes path), t.named here (Octets.toBytes dest) with
  | .error e, _ => refuseWith call ("cannot stat " ++ quotedPath path) e
  | .ok (loc, e), target =>
    let moved : Process Bool := do
      match t.rename here (Octets.toBytes path) (Octets.toBytes dest) with
      | .ok t =>
        Process.setTree t
        if call.has 'v' then emit call.name ("renamed " ++ arrow path dest ++ "\n")
        return true
      | .error .notEmpty => refuseWith call ("cannot overwrite " ++ quotedPath dest) .notEmpty
      | .error .invalidArgument =>
        refuse call ("cannot move " ++ quotedPath path ++ " to a subdirectory of itself, " ++
          quotedPath dest)
      | .error e =>
        refuseWith call ("cannot move " ++ quotedPath path ++ " to " ++ quotedPath dest) e
    match target with
    | .error _ => moved
    | .ok (place, old) =>
      if place = loc then
        refuse call (quotedPath path ++ " and " ++ quotedPath dest ++ " are the same file")
      else if call.has 'n' then refuse call ("not replacing " ++ quotedPath dest)
      else
        match e, old with
        | .directory, .directory => moved
        | .directory, _ =>
          refuse call ("cannot overwrite non-directory " ++ quotedPath dest ++ " with directory " ++
            quotedPath path)
        | _, .directory =>
          refuse call ("cannot overwrite directory " ++ quotedPath dest ++ " with non-directory")
        | _, _ => moved

/-- Makes a link at a path to another one; one that is not symbolic is a copy. -/
def linkEntry (call : Call) (path dest : Text) : Process Bool := do
  let t ← Process.tree
  let here ← Process.directory
  let bytes := Octets.toBytes path
  let place := Octets.toBytes dest
  let symbolic := call.has 's'
  let kind : Text := if symbolic then "symbolic link " else "hard link "
  let source := t.target here bytes
  match symbolic, source with
  | false, .error e => refuseWith call ("failed to access " ++ quotedPath path) e
  | false, .ok (_, .directory) => refuse call (path ++ ": hard link not allowed for directory")
  | _, _ =>
    match t.named here place with
    | .ok (loc, old) =>
      if old = .directory ∧ call.has 'f' then refuse call (dest ++ ": cannot overwrite directory")
      else if call.has 'f' then
        if !symbolic && source.toOption.any (·.1 == loc) then
          refuse call (quotedPath path ++ " and " ++ quotedPath dest ++ " are the same file")
        else
          Process.setTree (t.put loc (match symbolic, source with
            | false, .ok (_, e) => e
            | _, _ => .link bytes))
          return true
      else refuseWith call ("failed to create " ++ kind ++ quotedPath dest) .alreadyExists
    | .error _ =>
      match t.locateParent here place, symbolic, source with
      | .ok (dir, .name name false), false, .ok (_, e) =>
        Process.setTree (t.put (name :: dir) e)
      | _, _, _ =>
        let shown := if symbolic && !path.isEmpty then quotedPath dest
          else if symbolic then arrow dest path
          else quotedPath dest ++ " => " ++ quotedPath path
        match (if path.isEmpty then .error (.os .notFound) else t.makeLink here place bytes) with
        | .ok made => Process.setTree made
        | .error (.os e) => return ← refuseWith call ("failed to create " ++ kind ++ shown) e
        | .error _ => return ← refuseWith call ("failed to create " ++ kind ++ shown) .notFound
      if call.has 'v' then emit call.name (arrow dest path ++ "\n")
      return true

/-- Changes the permissions of what a path leads to, and of all that is in it if wanted. -/
def changeMode (call : Call) (mode path : Text) : Process Bool := do
  let t ← Process.tree
  let here ← Process.directory
  let bytes := Octets.toBytes path
  match t.named here bytes, t.target here bytes with
  | .ok (_, .link _), .error _ =>
    if call.has 'f' then return false
    refuse call ("cannot operate on dangling symlink " ++ quotedPath path)
  | _, .error e =>
    if call.has 'f' then return false
    refuseWith call ("cannot access " ++ quotedPath path) e
  | _, .ok (loc, _) =>
    let isMeant (place : Location) : Bool :=
      place == loc || (call.has 'R' && loc.isSuffixOf place)
    Process.setTree ⟨t.entries.map fun (place, e) =>
      match isMeant place, e with
      | true, .file content permissions =>
        (place, .file content ((Permissions.change? 0o022 false permissions mode).getD permissions))
      | _, _ => (place, e)⟩
    return true

/-- Reads a call of a tool that gives entries to other paths. -/
def readPlan (shape : Shape) (words : List Text) (takesLink : Call → Bool) (alone : Bool) :
    Process (Call × Plan) := do
  let call ← readCall shape words
  match call.operands with
  | [] => misuse call.name "missing file operand"
  | [path] =>
    if !alone ∧ (call.word? 't').isNone then
      misuse call.name ("missing destination file operand after " ++ quotedPath path)
  | _ => pure ()
  return (call, ← plan call (takesLink call))

/-- Does something with all pairs of a plan; tells whether all went well. -/
def carryOut (step : Text → Text → Process Bool) : Plan → Process Bool
  | [] => return true
  | (path, dest) :: rest => do
    let one ← step path dest
    let others ← carryOut step rest
    return one && others

end Copy

/-- Copies entries. -/
def cp : Program := fun _ words => do
  let shape : Shape :=
    { letters := "abdfiHlLnPprRst:TuvxZ"
      names := [("archive", 'a'), ("force", 'f'), ("no-clobber", 'n'), ("recursive", 'r'),
        ("target-directory", 't'), ("no-target-directory", 'T'), ("verbose", 'v'),
        ("update", 'u'), ("dereference", 'L'), ("no-dereference", 'P')] }
  let (call, plan) ← Copy.readPlan shape words (fun _ => true) false
  if call.has 'n' then
    complain call.name
      "warning: behavior of -n is non-portable and may change in future; use --update=none instead"
  let depth := (← Process.tree).entries.length + 1
  return statusOf (← Copy.carryOut (Copy.copyEntry call depth false) plan)

/-- Moves entries. -/
def mv : Program := fun _ words => do
  let shape : Shape :=
    { letters := "bfint:TuvZ"
      names := [("force", 'f'), ("no-clobber", 'n'), ("target-directory", 't'),
        ("no-target-directory", 'T'), ("verbose", 'v'), ("update", 'u')] }
  let (call, plan) ← Copy.readPlan shape words (fun _ => true) false
  return statusOf (← Copy.carryOut (Copy.moveEntry call) plan)

/-- Makes links. -/
def ln : Program := fun _ words => do
  let shape : Shape :=
    { letters := "bdFfiLnPrst:Tv"
      names := [("symbolic", 's'), ("force", 'f'), ("no-dereference", 'n'),
        ("target-directory", 't'), ("no-target-directory", 'T'), ("verbose", 'v')] }
  let (call, plan) ← Copy.readPlan shape words (fun call => !call.has 'n') true
  return statusOf (← Copy.carryOut (Copy.linkEntry call) plan)

/-- Changes permissions. -/
def chmod : Program := fun _ words => do
  let shape : Shape :=
    { letters := "Rvcf"
      names := [("recursive", 'R'), ("verbose", 'v'), ("changes", 'c'), ("silent", 'f'),
        ("quiet", 'f')] }
  let isMode (w : Text) : Bool :=
    match w with
    | '-' :: rest => !rest.isEmpty && rest.all "rwxXstugo".toList.contains
    | _ => false
  let (before, behind) := words.span fun w => !isMode w
  let words := match behind with
    | mode :: rest => before ++ ['-', '-'] :: mode :: rest
    | [] => words
  let call ← readCall shape words
  match call.operands with
  | [] => misuse call.name "missing operand"
  | [mode] => misuse call.name ("missing operand after " ++ quoted mode)
  | mode :: paths =>
    if (Permissions.change? 0o022 false 0 mode).isNone then
      misuse call.name ("invalid mode: " ++ quoted mode)
    return statusOf (← forOperands (Copy.changeMode call mode) paths)

end NinjaPlan.Tool
