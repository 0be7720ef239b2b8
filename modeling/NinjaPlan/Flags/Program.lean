import NinjaPlan.Flags.Package

/-! # Package programs

A package program is called with a switch and a package, and prints flags.  How a program is run is
left open, as a `ProgramRunner`; with one, a program is a source of package flags. -/

namespace NinjaPlan

/-- How a process ends. -/
inductive Ending where
  | status (code : Nat)
  | signal (number : Nat)
deriving DecidableEq

/-- What a program leaves behind. -/
structure Output where
  out : Bytes
  err : Bytes
  ending : Ending
  /-- The files afterwards. -/
  tree : FileTree

/-- A way to run a program with arguments; it fails if the program does not start. -/
abbrev ProgramRunner := FileTree → Text → List Text → Except IoError Output

def defaultPackageProgram : Text := "pkg-config"

/-- The environment variable that names another package program. -/
def packageProgramVariable : Text := "NINJACONF_PKG_CONFIG"

/-- What a run of a package program answers. -/
def packageAnswer (program : Text) (output : Output) : Except LookupError Text :=
  match output.ending with
  | .status 0 =>
    match Utf8.decode output.out with
    | none => .error (.notUtf8 program)
    | some text => .ok (Text.trim text)
  | .status n => .error (.exit program (some n) (Text.trim (Utf8.decodeLossy output.err)))
  | .signal _ => .error (.exit program none (Text.trim (Utf8.decodeLossy output.err)))

/-- The package flags that a program tells. -/
def ProgramRunner.packages (run : ProgramRunner) (program : Text) : PackageSource :=
  fun t package kind =>
    match run t program [kind.switch, package] with
    | .error e => (.error (.spawn program e), t)
    | .ok output => (packageAnswer program output, output.tree)

end NinjaPlan
