import NinjaPlan.Files.Access

/-! # Changing a file tree

Making directories, writing files, and making and removing entries.  A change to one entry gives
the new tree or the error for which the old one stays. -/

namespace NinjaPlan.FileTree

/-- The permissions of a file when nothing else is asked for. -/
def defaultPermissions : Nat := 0o644

def programPermissions : Nat := 0o755

def makeDirectory (t : FileTree) (here : Location) (path : Bytes) : Except IoError FileTree :=
  if 0 ∈ path then .error .nulInFileName
  else
    match t.locateParent here path with
    | .error e => .error (.os e)
    | .ok (dir, .name name _) =>
      if (t.get? (name :: dir)).isSome then .error (.os .alreadyExists)
      else .ok (t.put (name :: dir) .directory)
    | .ok _ => .error (.os .alreadyExists)

/-- A path and the paths above it, the path first, as far as there are `fuel` of them. -/
def ancestors : Nat → Path → List Path
  | 0, _ => []
  | fuel + 1, p =>
    p :: match p.parent with
      | none => []
      | some above => ancestors fuel above

/-- Makes the first directory of the list, if need be after those that follow it.  Directories
that were made stay, whatever happens. -/
def makeFirst (t : FileTree) (here : Location) : List Path → FileTree × Option IoError
  | [] => (t, some .nothingCreated)
  | p :: above =>
    if p.text = [] then (t, none)
    else
      let settle (t : FileTree) (e : IoError) : FileTree × Option IoError :=
        (t, if (t.directoryAt here p.bytes).isSome then none else some e)
      match t.makeDirectory here p.bytes with
      | .ok made => (made, none)
      | .error (.os .notFound) =>
        match t.makeFirst here above with
        | (made, some e) => (made, some e)
        | (made, none) =>
          match made.makeDirectory here p.bytes with
          | .ok done => (done, none)
          | .error e => settle made e
      | .error e => settle t e

/-- Makes a directory and those above it that are missing. -/
def makeDirectories (t : FileTree) (here : Location) (p : Path) : FileTree × Option IoError :=
  t.makeFirst here (ancestors (p.text.length + 1) p)

/-- Writes a file, which is created if it is missing and otherwise keeps its permissions. -/
def writeFile (t : FileTree) (here : Location) (path content : Bytes) :
    Except IoError FileTree :=
  if 0 ∈ path then .error .nulInFileName
  else
    match t.locatePlace here path with
    | .error e => .error (.os e)
    | .ok (.vacant dir name) => .ok (t.put (name :: dir) (.file content defaultPermissions))
    | .ok (.existing loc) =>
      match t.get? loc with
      | some .directory => .error (.os .isDirectory)
      | some (.file _ permissions) => .ok (t.put loc (.file content permissions))
      | _ => .ok t

/-- Gives the file that a path leads to other permissions. -/
def setPermissions (t : FileTree) (here : Location) (path : Bytes) (permissions : Nat) :
    Except IoError FileTree :=
  match t.find here path with
  | .error e => .error e
  | .ok loc =>
    match t.get? loc with
    | some (.file content _) => .ok (t.put loc (.file content permissions))
    | _ => .ok t

def makeLink (t : FileTree) (here : Location) (path target : Bytes) : Except IoError FileTree :=
  if 0 ∈ path ∨ 0 ∈ target then .error .nulInFileName
  else
    match t.locateParent here path with
    | .error e => .error (.os e)
    | .ok (dir, .name name slashed) =>
      if (t.get? (name :: dir)).isSome then .error (.os .alreadyExists)
      else if slashed then .error (.os .notFound)
      else .ok (t.put (name :: dir) (.link target))
    | .ok _ => .error (.os .alreadyExists)

/-- Removes what a path names and everything below it; a link itself is removed. -/
def remove (t : FileTree) (here : Location) (path : Bytes) : Except IoError FileTree :=
  if 0 ∈ path then .error .nulInFileName
  else
    match t.locateParent here path with
    | .error e => .error (.os e)
    | .ok (dir, .name name _) =>
      if (t.get? (name :: dir)).isSome then .ok (t.eraseBelow (name :: dir))
      else .error (.os .notFound)
    | .ok _ => .error (.os .invalidArgument)

end NinjaPlan.FileTree
