import NinjaPlan.Posix.Tool.Table

/-! # Running programs

A program is named by a path, or looked for in the directories of a search path.  It runs to its
end with nothing to read, and what it prints is kept.  This is one way to run package programs, on a
machine whose programs are shell scripts; nothing is proved about it, and nothing depends on it but
the outermost layer. -/

namespace NinjaPlan

/-- The directories in which programs are looked for if the environment does not tell. -/
def defaultSearchPath : Text := "/bin:/usr/bin"

/-- The number of the process that runs programs. -/
def firstProcess : Nat := 1000

/-- A machine on which a process is about to become a program.  Its descriptors are connected to
nothing, to the first sink and to the second. -/
def FileTree.machine (t : FileTree) (here : Location) (environment : List (Text × Text)) :
    Machine where
  world :=
    { tree := t
      files := [(0, .device .null), (1, .sink [] none), (2, .sink [] none)]
      nextFile := 3
      nextProcess := firstProcess + 2 }
  process :=
    { number := firstProcess + 1
      parents := [firstProcess]
      descriptors := [(0, 0), (1, 1), (2, 2)]
      directory := here
      environment := environment.map fun (n, v) => (Octets.ofText n, Octets.ofText v) }

def FileTree.runProgram (t : FileTree) (here : Location) (environment : List (Text × Text))
    (program : Text) (arguments : List Text) : Except IoError Output :=
  if (program :: arguments).any fun s => s.contains '\x00' then .error .nulInArgument
  else
    let words := (program :: arguments).map Octets.ofText
    let searchPath := (environment.lookup "PATH".toList).getD defaultSearchPath
    let body := Execute.named Tool.execute (Octets.ofText searchPath) (Octets.ofText program) words
    let (result, m) := body.run (t.machine here environment)
    let printed (n : Nat) : Bytes :=
      match m.world.files.lookup n with
      | some (.sink written _) => Octets.toBytes written.reverse.flatten
      | _ => []
    match result with
    | .ok e => .error (.os e)
    | .error ending => .ok ⟨printed 1, printed 2, ending, m.world.tree⟩

/-- The package flags that a program tells when it is run. -/
def packageSource (here : Location) (environment : List (Text × Text)) (program : Text) :
    PackageSource :=
  ProgramRunner.packages (fun t => t.runProgram here environment) program

end NinjaPlan
