import NinjaPlan.Files.Tree

/-! # Following a path

A path leads from a directory through the tree, one segment at a time: blank segments and dots
stay, `..` goes up, and a name goes down.  `walk` goes on until the path ends, a name is
missing or a symbolic link is met; `follow` also takes the links, of which a path may meet
forty.  `locate` follows a path as written, and `locateParent` stops before its last name. -/

namespace NinjaPlan

/-- The byte that separates the segments of a path. -/
def slash : UInt8 := 0x2F

/-- The byte that is a segment of its own for the directory stood in. -/
def dot : UInt8 := 0x2E

/-- The number of bytes that a name may have. -/
def nameLimit : Nat := 255

/-- The number of bytes that a path must not reach. -/
def pathLimit : Nat := 4096

/-- The number of symbolic links that a path may meet. -/
def linkLimit : Nat := 40

namespace FileTree

/-- How far a path leads without taking a symbolic link. -/
inductive Walk where
  /-- The path ends at an entry. -/
  | found (loc : Location)
  /-- A name is missing, with the segments after it. -/
  | missing (above : Location) (name : Name) (rest : List Name)
  /-- A symbolic link is met, with the segments after it. -/
  | link (above : Location) (target : Bytes) (rest : List Name)
  | refused (e : OsError)

/-- Goes along the segments up to the next symbolic link. -/
def walk (t : FileTree) : Location → List Name → Walk
  | here, [] => .found here
  | here, s :: rest =>
    if t.get? here = none then .refused .notFound
    else if t.get? here ≠ some .directory then .refused .notDirectory
    else if s = [] ∨ s = [dot] then t.walk here rest
    else if s = [dot, dot] then t.walk here.tail rest
    else if nameLimit < s.length then .refused .nameTooLong
    else
      match t.get? (s :: here) with
      | none => .missing here s rest
      | some (.link target) => .link here target rest
      | some _ => t.walk (s :: here) rest

/-- Where a path leads: to an entry, or to the place of a missing one. -/
inductive Reached where
  | found (loc : Location)
  | missing (above : Location) (name : Name) (rest : List Name)

/-- The directory where a path starts. -/
def startOf (here : Location) (path : Bytes) : Location :=
  if path.head? = some slash then [] else here

/-- Goes along the segments, taking at most `links` symbolic links. -/
def follow (t : FileTree) : Nat → Location → List Name → Except OsError Reached
  | links, here, segments =>
    match t.walk here segments, links with
    | .found loc, _ => .ok (.found loc)
    | .missing above name rest, _ => .ok (.missing above name rest)
    | .refused e, _ => .error e
    | .link _ _ _, 0 => .error .tooManyLinks
    | .link above target rest, links + 1 =>
      t.follow links (startOf above target) (Text.pieces slash target ++ rest)

/-- Follows a path from a directory. -/
def locate (t : FileTree) (here : Location) (path : Bytes) : Except OsError Reached :=
  if path = [] then .error .notFound
  else if pathLimit ≤ path.length then .error .nameTooLong
  else t.follow linkLimit (startOf here path) (Text.pieces slash path)

/-- The last segment of a path. -/
inductive LastSegment where
  /-- A name, and whether a slash follows it. -/
  | name (name : Name) (slashed : Bool)
  /-- A dot or two. -/
  | dots
  /-- None: the path holds slashes only. -/
  | root

/-- The segments before the last one, which is told apart. -/
def splitLast (path : Bytes) : List Name × LastSegment :=
  let segments := Text.pieces slash path
  match segments.reverse.dropWhile (· == []) with
  | [] => ([], .root)
  | last :: before =>
    (before.reverse,
      if last = [dot] ∨ last = [dot, dot] then .dots
      else .name last (segments.getLast? == some []))

/-- Follows a path up to its last segment, which is not looked up; the directory reached must
be one. -/
def locateParent (t : FileTree) (here : Location) (path : Bytes) :
    Except OsError (Location × LastSegment) :=
  if path = [] then .error .notFound
  else if pathLimit ≤ path.length then .error .nameTooLong
  else
    let (before, last) := splitLast path
    match t.follow linkLimit (startOf here path) before with
    | .error e => .error e
    | .ok (.missing ..) => .error .notFound
    | .ok (.found loc) =>
      if t.get? loc ≠ some .directory then .error .notDirectory
      else
        match last with
        | .name name _ => if nameLimit < name.length then .error .nameTooLong else .ok (loc, last)
        | _ => .ok (loc, last)

/-- Where a file is to be written. -/
inductive Place where
  | existing (loc : Location)
  /-- The place of an entry that is not there yet, in a directory that is. -/
  | vacant (above : Location) (name : Name)

/-- Follows segments up to the last one, which is that of a file to be written.  A slash behind
its name asks for a directory, whatever there is. -/
def placeOf (t : FileTree) : Nat → Location → List Name → LastSegment → Except OsError Place
  | links, here, before, last =>
    match t.follow links here before with
    | .error e => .error e
    | .ok (.missing ..) => .error .notFound
    | .ok (.found dir) =>
      if t.get? dir = none then .error .notFound
      else if t.get? dir ≠ some .directory then .error .notDirectory
      else
        match last with
        | .root | .dots => .error .isDirectory
        | .name _ true => .error .isDirectory
        | .name name false =>
          if nameLimit < name.length then .error .nameTooLong
          else
            match t.get? (name :: dir), links with
            | none, _ => .ok (.vacant dir name)
            | some (.link _), 0 => .error .tooManyLinks
            | some (.link target), links + 1 =>
              let (before, last) := splitLast target
              t.placeOf links (startOf dir target) before last
            | some _, _ => .ok (.existing (name :: dir))

/-- Where a file with the given path is to be written. -/
def locatePlace (t : FileTree) (here : Location) (path : Bytes) : Except OsError Place :=
  if path = [] then .error .notFound
  else if pathLimit ≤ path.length then .error .nameTooLong
  else
    let (before, last) := splitLast path
    t.placeOf linkLimit (startOf here path) before last

end FileTree
end NinjaPlan
