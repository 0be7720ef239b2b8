import NinjaPlan.Posix.Programs
import NinjaPlan.Project.Report

/-! # The command

The program on a machine of its own: package programs are run on the files that there are.  It is a
`report` for one source of package flags, and what is proved of every report holds of it. -/

namespace NinjaPlan

/-- Runs the program with arguments. -/
def command (env : Environment) (t : FileTree) (here : Location) (args : List Text)
    (sink : Sink := .open) (fault : Option FileTree.Fault := none) : Report :=
  report (packageSource here env.values env.program) env.program t here args sink fault

end NinjaPlan
