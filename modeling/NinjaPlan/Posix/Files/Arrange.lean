import NinjaPlan.Files.Access

/-! # Removing and moving entries

What is done to an entry itself: it is looked at, removed or moved.  A link that a path ends in is
not taken, unless a slash follows its name. -/

namespace NinjaPlan.FileTree

/-- The entry that a path leads to, with its location; a link that the path ends in is taken. -/
def target (t : FileTree) (here : Location) (path : Bytes) : Except OsError (Location × Entry) :=
  match t.locate here path with
  | .error e => .error e
  | .ok (.missing ..) => .error .notFound
  | .ok (.found loc) =>
    match t.get? loc with
    | none => .error .notFound
    | some e => .ok (loc, e)

/-- The entry that a path names, with its location; a link that the path ends in is not taken. -/
def named (t : FileTree) (here : Location) (path : Bytes) : Except OsError (Location × Entry) :=
  match t.locateParent here path with
  | .error e => .error e
  | .ok (dir, .name name false) =>
    match t.get? (name :: dir) with
    | none => .error .notFound
    | some e => .ok (name :: dir, e)
  | .ok _ => t.target here path

/-- Whether a directory holds nothing. -/
def isEmptyDirectory (t : FileTree) (loc : Location) : Bool := (t.children loc).isEmpty

/-- Removes the entry that a path names, which must not be a directory. -/
def removeFile (t : FileTree) (here : Location) (path : Bytes) : Except OsError FileTree :=
  match t.locateParent here path with
  | .error e => .error e
  | .ok (dir, .name name slashed) =>
    match t.get? (name :: dir) with
    | none => .error .notFound
    | some .directory => .error .isDirectory
    | some _ => if slashed then .error .notDirectory else .ok (t.erase (name :: dir))
  | .ok _ => .error .isDirectory

/-- Removes the directory that a path names, which must be empty. -/
def removeDirectory (t : FileTree) (here : Location) (path : Bytes) : Except OsError FileTree :=
  match t.locateParent here path with
  | .error e => .error e
  | .ok (dir, .name name _) =>
    match t.get? (name :: dir) with
    | none => .error .notFound
    | some .directory =>
      if t.isEmptyDirectory (name :: dir) then .ok (t.erase (name :: dir)) else .error .notEmpty
    | some _ => .error .notDirectory
  | .ok (_, .root) => .error .busy
  | .ok _ =>
    if (Text.pieces slash path).reverse.dropWhile (· == []) |>.head? |>.any (· == [dot]) then
      .error .invalidArgument
    else .error .notEmpty

/-- The tree in which everything at and below a location is at another one. -/
def relocate (t : FileTree) (source target : Location) : FileTree :=
  ⟨(t.eraseBelow target).entries.map fun (loc, e) =>
    if source.isSuffixOf loc then (loc.take (loc.length - source.length) ++ target, e)
    else (loc, e)⟩

/-- Gives the entry that a path names another path.  What has that path goes, if it is of the same
kind and no directory that holds something. -/
def rename (t : FileTree) (here : Location) (path newPath : Bytes) : Except OsError FileTree :=
  match t.locateParent here path, t.locateParent here newPath with
  | .error e, _ | _, .error e => .error e
  | .ok (dir, .name name slashed), .ok (newDir, .name newName newSlashed) =>
    let source := name :: dir
    let target := newName :: newDir
    match t.get? source with
    | none => .error .notFound
    | some entry =>
      let isDirectory := entry == .directory
      if (slashed || newSlashed) && !isDirectory then .error .notDirectory
      else if source = target then .ok t
      else if source.isSuffixOf target then .error .invalidArgument
      else
        match t.get? target with
        | none => .ok (t.relocate source target)
        | some .directory =>
          if !isDirectory then .error .isDirectory
          else if t.isEmptyDirectory target then .ok (t.relocate source target)
          else .error .notEmpty
        | some _ => if isDirectory then .error .notDirectory else .ok (t.relocate source target)
  | .ok _, .ok _ => .error .busy

end NinjaPlan.FileTree
