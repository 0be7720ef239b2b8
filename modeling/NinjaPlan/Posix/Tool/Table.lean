import NinjaPlan.Posix.Script.Shell
import NinjaPlan.Posix.Tool.Compare
import NinjaPlan.Posix.Tool.Copy
import NinjaPlan.Posix.Tool.Cut
import NinjaPlan.Posix.Tool.Directory
import NinjaPlan.Posix.Tool.Edit
import NinjaPlan.Posix.Tool.Expression
import NinjaPlan.Posix.Tool.Filter
import NinjaPlan.Posix.Tool.Launch
import NinjaPlan.Posix.Tool.Print
import NinjaPlan.Posix.Tool.Search
import NinjaPlan.Posix.Tool.Show
import NinjaPlan.Posix.Tool.Sorting
import NinjaPlan.Posix.Tool.Translate

/-! # The programs of the machine

Every program that the machine has, and the file tree of a machine that nobody has used yet. -/

namespace NinjaPlan.Tool

def table : List (String × Program) := [
  ("[", judge true), ("basename", basename), ("bash", Script.Shell.program), ("cat", cat),
  ("chmod", chmod), ("cmp", cmp), ("comm", comm), ("cp", cp), ("cut", cut),
  ("dash", Script.Shell.program), ("dirname", dirname), ("echo", echo), ("egrep", grep true false),
  ("env", env), ("expr", expr), ("false", nothing 1), ("fgrep", grep false true),
  ("grep", grep false false), ("head", head), ("ln", ln), ("ls", ls), ("mkdir", mkdir), ("mv", mv),
  ("nice", nice), ("nl", nl), ("nohup", nohup), ("paste", paste), ("printenv", printenv),
  ("printf", printf), ("pwd", pwd), ("readlink", readlink), ("realpath", realpath), ("rev", rev),
  ("rm", rm), ("rmdir", rmdir), ("sed", sed), ("seq", seq), ("sh", Script.Shell.program),
  ("sleep", sleep), ("sort", sort), ("stat", stat), ("sync", nothing 0), ("tac", tac),
  ("tail", tail), ("tee", tee), ("test", judge false), ("timeout", timeout), ("touch", touch),
  ("tr", tr), ("true", nothing 0), ("uname", uname), ("uniq", uniq), ("wc", wc), ("which", which),
  ("whoami", whoami), ("xargs", xargs), ("yes", yes)]

def program? (name : Text) : Option Program :=
  (table.find? fun p => p.1.toList == name).map Prod.snd

/-- How deep programs may execute each other. -/
def depthLimit : Nat := 1000

/-- Executes files as the machine does. -/
def execute : Execute := Execute.withPrograms program? depthLimit

/-! ### Files -/

def name (s : String) : Name := Utf8.encode s.toList

/-- The directories of a machine that nobody has used yet, the upper ones first. -/
def directories : List (List String) := [
  ["dev"], ["etc"], ["home"], ["opt"], ["proc"], ["root"], ["run"], ["srv"], ["sys"], ["tmp"],
  ["usr"], ["usr", "bin"], ["usr", "lib"], ["usr", "local"], ["usr", "local", "bin"],
  ["usr", "sbin"], ["usr", "share"], ["var"], ["var", "tmp"]]

/-- The links in the root of the machine. -/
def links : List (String × String) := [("bin", "usr/bin"), ("lib", "usr/lib"), ("sbin", "usr/sbin")]

def devices : List (String × Device) := [
  ("null", .null), ("zero", .zero), ("full", .full), ("stdin", .descriptor 0),
  ("stdout", .descriptor 1), ("stderr", .descriptor 2), ("tty", .closed)]

/-- The file tree of a machine that nobody has used yet. -/
def systemTree : FileTree :=
  let t := directories.foldl (fun (t : FileTree) path =>
    t.put (path.reverse.map name) .directory) {}
  let t := links.foldl (fun (t : FileTree) (n, target) => t.put [name n] (.link (name target))) t
  let t := devices.foldl (fun (t : FileTree) (n, device) =>
    t.put [name n, name "dev"] (.device device)) t
  table.foldl (fun (t : FileTree) (n, _) =>
    t.put [name n, name "bin", name "usr"]
      (.file (Execute.programFile n.toList) 0o755)) t

end NinjaPlan.Tool
