import NinjaPlan.Project.Command

/-! # The program

The layer between the library and the system.  It looks at the files that the arguments are
about, lets `command` work on what it has seen, and then prints and writes what has come of it. -/

namespace NinjaPlan.Program

/-! ### Looking at files -/

def systemName (loc : Location) : String := String.ofList (Location.display loc).text

/-- The location that an absolute path without links names. -/
def locationOf (path : String) : Location :=
  ((Text.pieces slash (Utf8.encode path.toList)).filter (· ≠ [])).reverse

/-- The permissions that every file seen is taken to have. -/
def seenPermissions : Nat := 0o755

/-- The tree with a directory and all directories above it. -/
def withDirectories (t : FileTree) : Location → FileTree
  | [] => t
  | name :: above => (withDirectories t above).put (name :: above) .directory

/-- Adds the entry at a location or, if a link is there, the link and what it leads to; tells
where the entry really is.  Contents are read if they are wanted. -/
def addEntry (t : FileTree) (loc : Location) (wanted : Bool) :
    IO (FileTree × Option Location) := do
  try
    let real ← IO.FS.realPath (systemName loc)
    let found := locationOf real.toString
    let entry ← match (← real.metadata).type with
      | .dir => pure Entry.directory
      | .file =>
        if wanted then pure (Entry.file (← IO.FS.readBinFile real).toList seenPermissions)
        else pure (Entry.file [] seenPermissions)
      | _ => pure (Entry.device .null)
    let t := (withDirectories t found.tail).put found entry
    return (if found = loc then t else t.put loc (.link (Location.path found)), some found)
  catch _ => return (t, none)

/-- Adds what a path meets on its way from a directory. -/
def addPath (wanted : Bool) : FileTree → Location → List Name → IO (FileTree × Option Location)
  | t, here, [] => return (t, some here)
  | t, here, s :: rest => do
    if s = [] ∨ s = [dot] then addPath wanted t here rest
    else if s = [dot, dot] then addPath wanted t here.tail rest
    else
      match ← addEntry t (s :: here) (wanted && rest.isEmpty) with
      | (t, none) => return (t, none)
      | (t, some found) => addPath wanted t found rest

/-- The bytes of a name that no file has, as the target of a link that leads nowhere. -/
def noName : Bytes := [0]

def addNames (t : FileTree) (dir : Location) : IO FileTree := do
  try
    let real ← IO.FS.realPath (systemName dir)
    let mut t := t
    for item in ← real.readDir do
      let loc := Utf8.encode item.fileName.toList :: dir
      match ← addEntry t loc false with
      | (seen, some _) => t := seen
      | (seen, none) => t := seen.put loc (.link noName)
    return t
  catch _ => return t

/-- Adds the directory that a path leads to, with the names in it. -/
def addDirectory (t : FileTree) (here : Location) (path : Path) : IO FileTree := do
  match ← addPath false t (FileTree.startOf here path.bytes) (Text.pieces slash path.bytes) with
  | (t, none) => return t
  | (t, some found) => addNames t found

/-- Adds the directories that a run with the given settings looks at. -/
def addProject (t : FileTree) (here : Location) (o : Options) : IO FileTree := do
  let t ← addDirectory t here ⟨o.root.getD "."⟩
  match o.locateRoot t here with
  | .error _ => return t
  | .ok root =>
    (Layout.ofOptions o root).targets.foldlM
      (fun t spec => addDirectory t here (sourceDirectory root spec.subdir)) t

/-- Adds the files that may be the package program. -/
def addProgram (t : FileTree) (here : Location) (env : Environment) : IO FileTree := do
  let candidates : List Path :=
    if '/' ∈ env.program then [⟨env.program⟩]
    else
      let searchPath := (env.values.lookup "PATH".toList).getD defaultSearchPath
      (Text.pieces ':' searchPath).map fun dir => Path.join ⟨dir⟩ ⟨env.program⟩
  candidates.foldlM
    (fun t path =>
      return (← addPath true t (FileTree.startOf here path.bytes)
        (Text.pieces slash path.bytes)).1) t

/-! ### Changing files -/

/-- What a file mode lets somebody do, given by its last octal digit. -/
def accessRight (mode : Nat) : IO.AccessRight where
  read := mode / 4 % 2 = 1
  write := mode / 2 % 2 = 1
  execution := mode % 2 = 1

/-- The rights that permissions give to the owner, the group and everybody else. -/
def fileRight (permissions : Nat) : IO.FileRight where
  user := accessRight (permissions / 0o100)
  group := accessRight (permissions / 0o10)
  other := accessRight permissions

/-- Carries out the steps of `FileTree.replace` for a file at a location.  If one fails, the
temporary file is removed. -/
def replaceFile (t : FileTree) (loc : Location) (content : Bytes) (permissions : Nat) :
    IO Unit := do
  let temporary := systemName (t.freshName loc.tail :: loc.tail)
  let file ← IO.FS.Handle.mk temporary .writeNew
  try
    IO.setAccessRights temporary (fileRight FileTree.privatePermissions)
    file.write ⟨content.toArray⟩
    file.flush
    IO.setAccessRights temporary (fileRight permissions)
    IO.FS.rename temporary (systemName loc)
  catch e =>
    IO.FS.removeFile temporary
    throw e

/-- Writes the files in which one tree differs from another. -/
def carryOut (seen wanted : FileTree) : IO Unit :=
  wanted.entries.forM fun (loc, entry) => do
    match entry with
    | .file content permissions =>
      if seen.get? loc ≠ some entry then replaceFile seen loc content permissions
    | _ => pure ()

/-! ### Running -/

/-- A record as a line of the log. -/
def showRecord (r : Record) : String :=
  String.ofList (r.level.name ++ " " ++ r.message ++
    r.fields.flatMap fun (name, value) => ' ' :: name ++ '=' :: value)

/-- Whether a record tells that a file is written; no other record has this level. -/
def tellsWritten (r : Record) : Bool :=
  match r.level with
  | .info => true
  | _ => false

/-- Tells the user why the program fails; gives the exit code. -/
def fail (e : IO.Error) : IO UInt32 := do
  IO.eprintln ("error: " ++ toString e)
  return 1

/-- Carries out what a command has done and prints what it has to say; gives the exit code. -/
def finish (seen : FileTree) (r : Report) : IO UInt32 := do
  let tell (records : List Record) : IO Unit :=
    records.forM fun record => IO.eprintln (showRecord record)
  try
    carryOut seen r.tree
  catch e =>
    tell (r.records.filter fun record => !tellsWritten record)
    return ← fail e
  tell r.records
  try
    (← IO.getStdout).putStr (String.ofList r.printed)
    (← IO.getStdout).flush
  catch
    -- A pipe that nobody reads is as good as a reader.
    | .resourceVanished .. => pure ()
    | e => return ← fail e
  match r.message with
  | none => pure ()
  | some message => IO.eprintln ("error: " ++ String.ofList message)
  return r.exitCode.toUInt32

/-- The environment variables that are looked at. -/
def knownVariables : List Text := ["PATH".toList, "HOME".toList, packageProgramVariable]

def variableOf (name : Text) : IO (Option (Text × Text)) := do
  return (← IO.getEnv (String.ofList name)).map fun value => (name, value.toList)

/-- Runs the command on the files of the system. -/
def runCommand (args : List Text) : IO UInt32 := do
  let env : Environment := ⟨← knownVariables.filterMapM variableOf⟩
  let real ← IO.FS.realPath "."
  let here := locationOf real.toString
  let seen := withDirectories Tool.systemTree here
  let seen ← match Options.parse args with
    | .error _ => pure seen
    | .ok o => do addProgram (← addProject seen here o) here env
  finish seen (command env seen here args)

end NinjaPlan.Program

def main (args : List String) : IO UInt32 :=
  NinjaPlan.Program.runCommand (args.map String.toList)
