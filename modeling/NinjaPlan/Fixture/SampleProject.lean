import NinjaPlan.Files.Change
import NinjaPlan.Project.Run

/-! # Sample projects

Project directories to try the library on: files whose only line tells their path. -/

namespace NinjaPlan.Fixture

/-- Why a sample project could not be set up: the messages, outermost first. -/
structure SampleError where
  context : Text
  cause : IoError
deriving DecidableEq

def SampleError.chain (e : SampleError) : List Text := [e.context, e.cause.message]

/-- Says what was being done when an operation failed. -/
def during {α : Type} (verb : Text) (path : Path) (r : Except IoError α) : Except SampleError α :=
  r.mapError fun e => ⟨verb ++ " " ++ path.text, e⟩

structure SampleProject where
  tree : FileTree
  root : Path

namespace SampleProject

def path (p : SampleProject) (relative : Text) : Path := p.root.join ⟨relative⟩

/-- A change of a sample project that may fail; what was changed before stays. -/
abbrev Change := ExceptT SampleError (StateM SampleProject)

/-- Makes a directory at a path and those above it. -/
def makePath (path : Path) : Change Unit := do
  let p ← get
  let (tree, failure) := p.tree.makeDirectories [] path
  set { p with tree := tree }
  match failure with
  | none => return
  | some e => throw ⟨"create " ++ path.text, e⟩

def makeDirectory (relative : Text) : Change Unit := do makePath ((← get).path relative)

/-- Makes a file that tells its path, and the directories above it. -/
def touch (relative : Text) : Change Unit := do
  let path := (← get).path relative
  match path.parent with
  | none => pure ()
  | some above => makePath above
  let p ← get
  let content := Utf8.encode ("// " ++ relative ++ "\n")
  match p.tree.writeFile [] path.bytes content with
  | .ok tree => set { p with tree := tree }
  | .error e => throw ⟨"write " ++ path.text, e⟩

def read (p : SampleProject) (relative : Text) : Except SampleError Text :=
  let path := p.path relative
  during "read" path (p.tree.readText [] path.bytes)

/-- Makes files in order. -/
def touchAll : List Text → Change Unit
  | [] => return
  | name :: names => do
    touch name
    touchAll names

def addSources (sources tests : List Text) : Change Unit := do
  makeDirectory "src"
  makeDirectory "tests"
  touchAll (sources.map fun s => "src/" ++ s)
  touchAll (tests.map fun s => "tests/" ++ s)

end SampleProject
end NinjaPlan.Fixture
