import NinjaPlan.Files.Walk
import NinjaPlan.Path.Basic

/-! # Reading a file tree

The questions asked of a tree: what a path leads to, where it really is, what a file says,
what is in a directory and what is below it. -/

namespace NinjaPlan

/-- The bytes of a path, as the system takes it. -/
def Path.bytes (p : Path) : Bytes := Utf8.encode p.text

def Location.path (loc : Location) : Bytes :=
  match loc with
  | [] => [slash]
  | names => names.reverse.flatMap (slash :: ·)

/-- The text of a location's path; bytes that are no text are replaced. -/
def Location.display (loc : Location) : Path := ⟨Utf8.decodeLossy (Location.path loc)⟩

namespace FileTree

/-- The location that a path leads to, links taken. -/
def find (t : FileTree) (here : Location) (path : Bytes) : Except IoError Location :=
  if 0 ∈ path then .error .nulInFileName
  else
    match t.locate here path with
    | .error e => .error (.os e)
    | .ok (.missing ..) => .error (.os .notFound)
    | .ok (.found loc) => .ok loc

/-- The entry that a path leads to, links taken. -/
def entryAt (t : FileTree) (here : Location) (path : Bytes) : Except IoError Entry :=
  match t.find here path with
  | .error e => .error e
  | .ok loc =>
    match t.get? loc with
    | none => .error (.os .notFound)
    | some e => .ok e

/-- The location of the directory that a path leads to, if it leads to one. -/
def directoryAt (t : FileTree) (here : Location) (path : Bytes) : Option Location :=
  match t.find here path with
  | .error _ => none
  | .ok loc => if t.get? loc = some .directory then some loc else none

def readFile (t : FileTree) (here : Location) (path : Bytes) : Except IoError Bytes :=
  match t.entryAt here path with
  | .error e => .error e
  | .ok .directory => .error (.os .isDirectory)
  | .ok (.file content _) => .ok content
  | .ok _ => .ok []

/-- The content of a file that holds a text. -/
def readText (t : FileTree) (here : Location) (path : Bytes) : Except IoError Text :=
  match t.readFile here path with
  | .error e => .error e
  | .ok content =>
    match Utf8.decode content with
    | none => .error .notUtf8
    | some text => .ok text

/-! ### Listings -/

/-- What a name in a directory leads to. -/
inductive Kind where
  | file
  | directory
  | other
  /-- A symbolic link that cannot be followed. -/
  | broken (e : OsError)
  /-- A symbolic link to the directory that holds it. -/
  | loop
deriving DecidableEq

/-- A name in a directory, and what it leads to. -/
structure Item where
  name : Name
  kind : Kind
deriving DecidableEq

def kindOf : Entry → Kind
  | .file .. => .file
  | .directory => .directory
  | _ => .other

/-- What a name in a directory leads to, links taken.  It is looked up from the directory itself: the
links on the way to the directory do not count towards the limit, nor does the length of its path,
as they would for the joined path. -/
def itemKind (t : FileTree) (dir : Location) (name : Name) : Kind :=
  match t.follow linkLimit dir [name] with
  | .error e => .broken e
  | .ok (.missing ..) => .broken .notFound
  | .ok (.found loc) =>
    match t.get? loc with
    | none => .broken .notFound
    | some e => if loc = dir then .loop else kindOf e

/-- The names in a directory and what they lead to, in the order of the names' bytes. -/
def items (t : FileTree) (dir : Location) : List Item :=
  ((t.children dir).map fun (name, _) => ⟨name, t.itemKind dir name⟩).mergeSort
    fun a b => decide (a.name ≤ b.name)

/-- The entries below a directory with their paths relative to it, in the order of the paths'
bytes; links are not taken. -/
def contents (t : FileTree) (dir : Location) : List (Bytes × Entry) :=
  let below := t.entries.filterMap fun (loc, e) =>
    if dir.isSuffixOf loc && loc != dir then
      some ([slash].intercalate (loc.take (loc.length - dir.length)).reverse, e)
    else none
  below.mergeSort fun a b => decide (a.1 ≤ b.1)

end FileTree
end NinjaPlan
