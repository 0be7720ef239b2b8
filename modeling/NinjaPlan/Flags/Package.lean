import NinjaPlan.Files.Tree

/-! # Package lookups

Packages tell which flags their users need.  A lookup asks for one package's flags of one
kind; where the answers come from is left open.  A source may run programs, which may change files,
so it is a function from the files, a package and a kind to an answer or a failure, with the files
afterwards.  `PackageAnswers` are sources that leave the files alone. -/

namespace NinjaPlan

/-- The kinds of flags that a package may require. -/
inductive FlagKind where
  /-- Flags for the compiler. -/
  | cflags
  /-- Flags for the linker. -/
  | libs
deriving DecidableEq, Repr

namespace FlagKind

def name : FlagKind → Text
  | cflags => "cflags"
  | libs => "libs"

/-- The argument that asks a package program for the kind. -/
def switch : FlagKind → Text
  | cflags => "--cflags"
  | libs => "--libs"

end FlagKind

/-- Why a package program gave no answer. -/
inductive LookupError where
  /-- The program could not be started. -/
  | spawn (program : Text) (cause : IoError)
  /-- The program failed with a status, or died of a signal, after printing `stderr`. -/
  | exit (program : Text) (status : Option Int) (stderr : Text)
  /-- The program's answer is not UTF-8. -/
  | notUtf8 (program : Text)
deriving DecidableEq

namespace LookupError

/-- How a program ended that did not succeed. -/
def describeStatus : Option Int → Text
  | none => "a signal"
  | some n => "status " ++ Text.ofInt n

def message : LookupError → Text
  | spawn program cause => "failed to run " ++ program ++ ": " ++ cause.message
  | exit program status stderr =>
    program ++ " exited with " ++ describeStatus status ++ ": " ++ stderr
  | notUtf8 program => program ++ " printed non-UTF-8 output"

/-- The message followed by those of its causes. -/
def chain : LookupError → List Text
  | spawn program cause => [message (spawn program cause), cause.message]
  | e => [e.message]

end LookupError

/-- A lookup: the package asked for, and the kind of flags. -/
abbrev Lookup := Text × FlagKind

/-- A source of package flags; a lookup may change files. -/
abbrev PackageSource := FileTree → Text → FlagKind → Except LookupError Text × FileTree

abbrev PackageAnswers := Text → FlagKind → Except LookupError Text

def PackageAnswers.source (answers : PackageAnswers) : PackageSource :=
  fun t package kind => (answers package kind, t)

end NinjaPlan
