import NinjaPlan.Files.Access
import NinjaPlan.Source

/-! # Finding the sources of a directory

The sources of a target are the regular files right inside one directory of the project that
have one of the wanted extensions, in the order of their names' bytes.  A directory that is not
there has no sources.  Entries are looked at in order and the first that cannot be followed, or
that is a file whose name is no text, is an error, whatever its extension. -/

namespace NinjaPlan

/-- Why the sources of a directory could not be found. -/
inductive ListingError where
  /-- A name in the directory cannot be followed. -/
  | broken (dir entry : Path) (cause : OsError)
  /-- A name in the directory leads back to the directory. -/
  | loop (dir entry : Path)
  /-- The name of a file is not UTF-8. -/
  | notUtf8 (dir : Path) (name : Name)
deriving DecidableEq

/-- The path of a name in a directory; bytes that are no text are replaced. -/
def entryPath (dir : Path) (name : Name) : Path := dir.join ⟨Utf8.decodeLossy name⟩

/-- The messages of the error and of its causes, outermost first. -/
def ListingError.chain : ListingError → List Text
  | broken dir entry cause =>
    let cause := (IoError.os cause).message
    ["failed to read " ++ dir.text,
      "IO error for operation on " ++ entry.text ++ ": " ++ cause, cause]
  | loop dir entry =>
    ["failed to read " ++ dir.text,
      "File system loop found: " ++ entry.text ++ " points to an ancestor " ++ dir.text]
  | notUtf8 dir name => ["source path " ++ (entryPath dir name).text ++ " is not valid UTF-8"]

def SourceFile.hasExtension (s : SourceFile) (extensions : List Text) : Bool :=
  match s.path.extension with
  | none => false
  | some ext => extensions.contains ext

/-- The sources among the items of a directory, which are given in order. -/
def selectSources (dir : Path) (extensions : List Text) :
    List FileTree.Item → Except ListingError (List SourceFile)
  | [] => .ok []
  | item :: rest =>
    match item.kind with
    | .broken e => .error (.broken dir (entryPath dir item.name) e)
    | .loop => .error (.loop dir (entryPath dir item.name))
    | .directory | .other => selectSources dir extensions rest
    | .file =>
      match Utf8.decode item.name with
      | none => .error (.notUtf8 dir item.name)
      | some name =>
        let source : SourceFile := ⟨dir.join ⟨name⟩⟩
        match selectSources dir extensions rest with
        | .error e => .error e
        | .ok found => .ok (if source.hasExtension extensions then source :: found else found)

/-- The directory that a target's sources are looked for in. -/
def sourceDirectory (root subdir : Path) : Path := root.join subdir.normalize

/-- The sources right inside a directory; `none` if there is no such directory. -/
def FileTree.sources? (t : FileTree) (here : Location) (dir : Path) (extensions : List Text) :
    Option (Except ListingError (List SourceFile)) :=
  (t.directoryAt here dir.bytes).map fun loc => selectSources dir extensions (t.items loc)

end NinjaPlan
