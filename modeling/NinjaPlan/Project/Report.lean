import NinjaPlan.Flags.Program
import NinjaPlan.Options.Parse
import NinjaPlan.Project.Run

/-! # Reports

What the program does with its arguments: it reads them, runs, and reports how that went.  Where the
package flags come from is left open. -/

namespace NinjaPlan

/-- What the program takes from its environment. -/
structure Environment where
  /-- The variables, by their names. -/
  values : List (Text × Text)

/-- The package program to run; an empty name asks for none. -/
def Environment.program (env : Environment) : Text :=
  match env.values.lookup packageProgramVariable with
  | none | some [] => defaultPackageProgram
  | some program => program

/-- How the program ends. -/
structure Report where
  exitCode : Nat
  printed : Text
  /-- What a talkative run has to say. -/
  records : List Record := []
  /-- What the user is told, if the program fails. -/
  message : Option Text
  tree : FileTree

/-- The report on a command line that asks for no run. -/
def Options.UsageError.report (e : Options.UsageError) (t : FileTree) : Report :=
  match e with
  | .helpWanted => { exitCode := 0, printed := Options.helpText, message := none, tree := t }
  | .versionWanted =>
    { exitCode := 0, printed := Options.programVersion ++ "\n", message := none, tree := t }
  | _ => { exitCode := 2, printed := [], message := e.message, tree := t }

/-- What a run has to say. -/
def Options.records (o : Options) (program : Text) (events : List Event) : List Record :=
  if o.verbose then events.filterMap (Event.record? (some program)) else []

/-- The report on a run with the given settings. -/
def Options.report (o : Options) (source : PackageSource) (program : Text) (t : FileTree)
    (here : Location) (sink : Sink) (fault : Option FileTree.Fault) : Report :=
  let outcome := o.run source t here sink fault
  let records := o.records program outcome.events
  match outcome.result with
  | .ok () => ⟨0, outcome.printed, records, none, outcome.tree⟩
  | .error e => ⟨1, outcome.printed, records, some (joinChain e.chain), outcome.tree⟩

/-- Runs the program with arguments.  The source tells what the package program does. -/
def report (source : PackageSource) (program : Text) (t : FileTree) (here : Location)
    (args : List Text) (sink : Sink) (fault : Option FileTree.Fault) : Report :=
  match Options.parse args with
  | .error e => e.report t
  | .ok o => o.report source program t here sink fault

end NinjaPlan
