import NinjaPlan.Path.Name
import NinjaPlan.Path.Normal

/-! # Sources and their objects

A source is known by its full path.  Its object is named after the source: the part of
the path below the project's root, put under the object directory, with its extension exchanged
for `o`. -/

namespace NinjaPlan

/-- A source file. -/
structure SourceFile where
  path : Path
deriving DecidableEq

/-- The file name without its extension. -/
def SourceFile.stem (s : SourceFile) : Option Text := s.path.fileStem

/-- Names the objects of the sources below a root. -/
structure ObjectMapper where
  root : Path
  /-- The directory of the objects, below the root; empty to keep them beside their sources. -/
  objectDir : Path := ⟨[]⟩
deriving DecidableEq

/-- A source below the root and its object. -/
structure MappedSource where
  source : Path
  object : Path
deriving DecidableEq

/-- Why a source has no object. -/
inductive MapError where
  | outsideRoot (source root : Path)
  | noFileName (source : Path)
deriving DecidableEq

def MapError.message : MapError → Text
  | outsideRoot source root =>
    "source " ++ source.text ++ " is outside the project root " ++ root.text
  | noFileName source => "source " ++ source.text ++ " has no file name"

def objectExtension : Text := "o"

/-- The source below the root and its object. -/
def ObjectMapper.map (m : ObjectMapper) (s : SourceFile) : Except MapError MappedSource :=
  match s.path.stripPrefix? m.root with
  | none => .error (.outsideRoot s.path m.root)
  | some below =>
    if below.fileName.isNone then .error (.noFileName s.path)
    else .ok ⟨below, (m.objectDir.join below).withExtension objectExtension⟩

end NinjaPlan
