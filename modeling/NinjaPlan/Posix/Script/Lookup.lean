import NinjaPlan.Posix.Script.Fields
import NinjaPlan.Posix.Script.Session

/-! # What a command name stands for

A name stands for a function, a utility of the shell, or a program in one of the directories of
the search path. -/

namespace NinjaPlan.Script

structure UtilityTraits where
  /-- Its faults end the shell, and assignments before it last. -/
  special : Bool := false
  /-- Its arguments may be assignments. -/
  assigns : Bool := false

namespace UtilityTraits

def specialNames : List Text :=
  [".", ":", "break", "continue", "eval", "exec", "exit", "export", "local", "readonly", "return",
    "set", "shift", "times", "trap", "unset"].map String.toList

def otherNames : List Text :=
  ["[", "alias", "bg", "cd", "chdir", "command", "echo", "false", "fg", "getopts", "hash",
    "jobs", "kill", "printf", "pwd", "read", "test", "true", "type", "ulimit", "umask",
    "unalias", "wait"].map String.toList

/-- The names of utilities that make assignments. -/
def assigningNames : List Text := ["export", "local", "readonly"].map String.toList

def ofName? (name : Text) : Option UtilityTraits :=
  if specialNames.contains name then some ⟨true, assigningNames.contains name⟩
  else if otherNames.contains name then some {}
  else none

end UtilityTraits

/-- What a name stands for. -/
inductive Meaning where
  | routine (r : Routine)
  | utility (traits : UtilityTraits)
  /-- A program, and whether it was found before. -/
  | program (path : Text) (tracked : Bool)
  | nothing (e : OsError)

namespace Lookup

/-- The search path of a shell that has been given none. -/
def standardPath : Text := "/usr/local/sbin:/usr/local/bin:/usr/sbin:/usr/bin:/sbin:/bin"

/-- The path of a name in a directory of a search path. -/
def inDirectory (dir name : Text) : Text :=
  if dir.isEmpty then name else dir ++ '/' :: name

/-- How a command that cannot be run is called, and the error to remember. -/
def remember (before e : OsError) : OsError :=
  if e = .notFound ∨ e = .notDirectory then before else e

/-- The first program of a name in the directories. -/
def searchIn (t : FileTree) (here : Location) (name : Text) :
    OsError → List Text → Except OsError Text
  | e, [] => .error e
  | e, dir :: dirs =>
    let path := inDirectory dir name
    match t.entryAt here (Octets.toBytes path) with
    | .ok (.file _ permissions) =>
      if permissions &&& 0o111 = 0 then searchIn t here name .permissionDenied dirs else .ok path
    | .ok _ => searchIn t here name .permissionDenied dirs
    | .error (.os failure) => searchIn t here name (remember e failure) dirs
    | .error _ => searchIn t here name e dirs

/-- What an error means for a command. -/
def describe (e : OsError) : Text :=
  if e = .notFound ∨ e = .notDirectory then "not found" else e.description

def program (searchPath name : Text) : Act Meaning := do
  let t ← Act.os Process.tree
  let here ← Act.os Process.directory
  match searchIn t here name .notFound (Text.pieces ':' searchPath) with
  | .ok path => return .program path false
  | .error e => return .nothing e

def searchPath : Act Text := return (← Act.value? "PATH").getD []

def meaning (name : Text) : Act Meaning := do
  let s ← get
  if name.contains '/' then return .program name false
  match s.routines.lookup name with
  | some r => return .routine r
  | none =>
    match UtilityTraits.ofName? name with
    | some traits => return .utility traits
    | none =>
      match s.tracked.lookup name with
      | some path => return .program path true
      | none => program (← searchPath) name

/-- Keeps in mind where a program was found. -/
def track (name path : Text) : Act Unit := modify fun s =>
  { s with tracked := (name, path) :: s.tracked.filter (·.1 != name) }

/-- Entries in the order in which a table with a number of buckets lists them. -/
def listed {α : Type} (buckets : Nat) (entries : List (Text × α)) : List (Text × α) :=
  let bucket (name : Text) : Nat :=
    (16 * (name.headD '\x00').toNat + name.foldl (fun sum c => sum + c.toNat) 0) % buckets
  entries.mergeSort fun a b => decide (bucket a.1 ≤ bucket b.1)

end Lookup
end NinjaPlan.Script
