import NinjaPlan.Posix.Programs

/-! # Trying the build tool

Whether the build tool can be run at all, and a run of it that builds nothing. -/

namespace NinjaPlan

/-- How a program ended, in words. -/
def Ending.describe : Ending → Text
  | .status code => "exit status: " ++ Text.ofNat code
  | .signal number =>
    "signal: " ++ Text.ofNat number ++ match Signal.all.find? fun s => s.number == number with
      | some s => " (SIG" ++ s.name ++ ")"
      | none => []

namespace Fixture

/-- Why the build tool could not be tried. -/
inductive ProbeError where
  /-- It could not be asked for its version. -/
  | probeSpawn (cause : IoError)
  /-- It did not tell its version. -/
  | probeFailed (ending : Ending)
  /-- It could not be started. -/
  | spawn (cause : IoError)
deriving DecidableEq

def ProbeError.message : ProbeError → Text
  | probeSpawn cause => "failed to spawn \x60ninja --version\x60: " ++ cause.message
  | probeFailed ending =>
    "\x60ninja --version\x60 returned non-success status: " ++ ending.describe
  | spawn cause => "failed to spawn ninja: " ++ cause.message

def ProbeError.chain : ProbeError → List Text
  | probeSpawn cause => [message (probeSpawn cause), cause.message]
  | probeFailed ending => [message (probeFailed ending)]
  | spawn cause => [message (spawn cause), cause.message]

/-- Whether the build tool tells its version. -/
def probeNinja (t : FileTree) (here : Location) (environment : List (Text × Text)) :
    Except ProbeError Unit :=
  match t.runProgram here environment "ninja" ["--version".toList] with
  | .error e => .error (.probeSpawn e)
  | .ok output => if output.ending = .status 0 then .ok () else .error (.probeFailed output.ending)

/-- A run of the build tool in a directory that builds nothing. -/
def dryRun (t : FileTree) (here : Location) (environment : List (Text × Text)) (dir : Path) :
    Except ProbeError Output :=
  (t.runProgram here environment "ninja" ["-n".toList, "-C".toList, dir.text]).mapError .spawn

end Fixture
end NinjaPlan
