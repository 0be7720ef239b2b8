import NinjaPlan.Posix.Script.Expand
import NinjaPlan.Posix.Script.Utility.Signals

/-! # Shells in shells

A command may run in a shell of its own: in parentheses, in a pipeline, for its output, or without
being waited for.  Such a shell starts with all that the one around it has, but without its traps
and jobs.

A job that is not waited for runs when the shell waits for it or ends. -/

namespace NinjaPlan.Script

/-- How a command is run. -/
structure Mode where
  /-- Its status is looked at, so that a failure does not end the shell. -/
  tested : Bool := false
  /-- Nothing comes after it. -/
  isLast : Bool := false

/-- What runs commands; the status is left in the shell. -/
abbrev Runner := Mode → Command → Act Unit

namespace Act

def runJob (number : Nat) : Act (Option Ending) := do
  match (← get).jobs.find? fun j => j.number == number with
  | none => return none
  | some job =>
    match job.ending with
    | some e => return some e
    | none =>
      let (_, ending) ← os (Process.fork job.body)
      modify fun s =>
        { s with jobs := s.jobs.map fun j =>
            if j.number = number then { j with ending := some ending } else j }
      Utility.takeSignals
      return some ending

/-- Remembers that the shell has waited for the jobs with some numbers. -/
def markWaited (which : Nat → Bool) : Act Unit := modify fun s =>
  { s with jobs := s.jobs.map fun j => { j with waited := j.waited || which j.number } }

/-- Makes room for a job in place of one that has been waited for. -/
def makeRoom : Act Unit := modify fun s =>
  { s with jobs := s.jobs.eraseP fun j => j.waited && j.ending.isSome }

def runJobs : Act Unit := do
  (← get).jobs.forM fun job => do
    let _ ← runJob job.number

def statusOf : Ending → Nat
  | .status n => n
  | .signal n => 128 + n

/-- The signals that a shell passes over in silence when they end a process. -/
def silentSignals : List Nat := [2, Signal.pipe]

/-- Takes the status of a process that has ended; says so if it was killed. -/
def takeEnding (ending : Ending) : Act Unit := do
  match ending with
  | .signal n =>
    if !silentSignals.contains n then os (Process.warn (Signal.description n))
  | .status _ => pure ()
  setStatus (statusOf ending)

/-- How a shell ends, given what the commands came to and how its last trap is run. -/
def endingOf (runText : Text → Act Bool) (outcome : Except Halt Unit) : Act Ending := do
  match outcome with
  | .error (.ended e) => return e
  | _ =>
    match outcome with
    | .error (.exited (some n)) => setStatus n
    | _ => pure ()
    let status := (← get).status
    match (← get).traps.lookup 0 with
    | none => return .status status
    | some action =>
      modify fun s => { s with traps := s.traps.filter (·.1 != 0) }
      match ← attempt (runText action) with
      | .error (.exited (some n)) => return .status n
      | .error (.ended e) => return e
      | .error .failed | .error .stopped => return .status (← get).status
      | _ => return .status status

/-- How many statuses a process can end with. -/
def statusCount : Nat := 256

/-- Runs a shell to its end, and then the jobs that it has left. -/
def live (runText : Text → Act Bool) (body : Act Unit) (s : Session) : Process Unit := fun m =>
  let whole : Act Ending := do
    let ending ← endingOf runText (← attempt body)
    let _ ← attempt runJobs
    return match ending with
      | .status n => .status (n % statusCount)
      | e => e
  let (result, s) := whole.run { s with machine := m }
  match result with
  | .ok ending => (.error ending, s.machine)
  | .error _ => (.error (.status s.status), s.machine)

/-- A shell as the ones in it start. -/
def inner (s : Session) : Session :=
  { s with
    traps := s.traps.filter fun t => t.1 != 0 && t.2.isEmpty
    trapped := []
    jobs := [] }

/-- Runs a shell in the shell. -/
def runInner (runText : Text → Act Bool) (body : Act Unit) : Act Ending := do
  makeRoom
  let s ← get
  let (_, ending) ← os (Process.fork (live runText body (inner s)))
  Utility.takeSignals
  return ending

/-- Starts a shell in the shell that is not waited for. -/
def startInner (runText : Text → Act Bool) (body : Act Unit) : Act Unit := do
  makeRoom
  let s ← get
  let p := s.machine.process
  let number := s.machine.world.nextProcess
  let child := { p with number := number, parents := p.number :: p.parents }
  let job : Process Unit := do
    Process.changeSelf fun _ => child
    live runText body (inner s)
  os (Process.changeWorld fun w => { w with nextProcess := number + 1 })
  modify fun s =>
    { s with jobs := s.jobs ++ [{ number := number, body := job }], lastJob := some number }

/-- The output of a shell in the shell. -/
def output (runText : Text → Act Bool) (body : Act Unit) : Act (Text × Ending) := do
  let sink ← os (Process.opened (.sink [] none))
  let ending ← runInner runText do
    os (Process.connect 1 sink)
    body
  return (← os (Process.contents sink), ending)

end Act
end NinjaPlan.Script
