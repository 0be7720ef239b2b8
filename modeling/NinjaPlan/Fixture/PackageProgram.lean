import NinjaPlan.Files.Change
import NinjaPlan.Posix.Programs

/-! # Package programs with canned answers

A small shell script that answers for the packages it knows and fails for others. -/

namespace NinjaPlan.Fixture

structure CannedPackage where
  name : Text
  cflags : Text
  libs : Text
deriving DecidableEq

def CannedPackage.arms (p : CannedPackage) : Text :=
  "  \x22--cflags " ++ p.name ++ "\x22) echo '" ++ p.cflags ++ "' ;;\n" ++
    "  \x22--libs " ++ p.name ++ "\x22) echo '" ++ p.libs ++ "' ;;\n"

/-- The script that answers for the packages, the first of a name before later ones. -/
def packageScript (packages : List CannedPackage) : Text :=
  "#!/bin/sh\ncase \x22$1 $2\x22 in\n" ++ packages.flatMap CannedPackage.arms ++
    "  *) echo \x22Package $2 was not found in the pkg-config search path\x22 >&2\n" ++
    "     exit 1 ;;\n" ++ "esac\n"

/-- Puts the package program into a directory; gives its path with the tree. -/
def installPackages (t : FileTree) (dir : Path) (packages : List CannedPackage) :
    Except IoError (FileTree × Path) := do
  let path := dir.join ⟨defaultPackageProgram⟩
  let t ← t.writeFile [] path.bytes (Utf8.encode (packageScript packages))
  let t ← t.setPermissions [] path.bytes FileTree.programPermissions
  return (t, path)

end NinjaPlan.Fixture
