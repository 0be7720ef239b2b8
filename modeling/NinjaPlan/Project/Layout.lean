import NinjaPlan.Options.Basic
import NinjaPlan.Plan.Basic

/-! # The layout of a project

Where a project keeps its sources and what is built from them: a program, and a test harness
that links the program's objects but for its entry point. -/

namespace NinjaPlan

structure Layout where
  root : Path
  sourceDir : Path
  testDir : Path
  name : Path
  testName : Path
  entryPoint : Text
  extensions : List Text
  /-- The directory of the objects; empty to keep them beside their sources. -/
  objectDir : Path
deriving DecidableEq

namespace Layout

/-- The layout that the settings ask for, in a project with the given root. -/
def ofOptions (o : Options) (root : Path) : Layout where
  root := root
  sourceDir := ⟨o.sourceDir⟩
  testDir := ⟨o.testDir⟩
  name := ⟨o.name⟩
  testName := ⟨o.testName⟩
  entryPoint := o.entryPoint
  extensions := o.extensions
  objectDir := ⟨o.objectDir.getD []⟩

/-- The program and the test harness. -/
def targets (l : Layout) : List TargetSpec :=
  [⟨l.name, l.sourceDir, .primary⟩, ⟨l.testName, l.testDir, .secondary l.name⟩]

def objectMapper (l : Layout) : ObjectMapper := ⟨l.root, l.objectDir⟩

end Layout

/-- The flags that the settings ask for. -/
def Options.flagRequest (o : Options) (l : Layout) : FlagRequest where
  mode := if o.release then .release else .debug
  compiler := o.compiler
  linker := o.linker
  compileOverride := o.compileFlags
  linkOverride := o.linkFlags
  depFlags := o.depFlags
  root := l.root
  includeDir := l.sourceDir.text
  packages := o.packages

end NinjaPlan
