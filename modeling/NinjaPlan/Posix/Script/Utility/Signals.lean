import NinjaPlan.Posix.Script.Utility.Jobs

/-! # Signals and traps

The utilities `kill` and `trap`.  A trap is a text that a shell runs when a signal arrives, or,
for the signal zero, when it ends. -/

namespace NinjaPlan.Script.Utility

/-- Takes a signal.  A trap is remembered, to run between two commands. -/
def takeSignal (signal : Nat) : Act Unit := do
  let s ← get
  let fatal : Act Unit := throw (.ended (.signal signal))
  if signal = Signal.kill then fatal
  else
    match s.traps.lookup signal with
    | some [] => return
    | some _ =>
      if !s.trapped.contains signal then
        modify fun s => { s with trapped := s.trapped ++ [signal] }
    | none =>
      if Signal.isHarmless signal ∨ s.machine.process.ignored.contains signal then return
      else fatal

/-- Takes the signals that other processes have sent. -/
def takeSignals : Act Unit := do (← Act.os Process.collectSignals).forM takeSignal

/-- The signal that a text names, by number or by name; the end of a shell may count as one. -/
def signal? (exitToo : Bool) (s : Text) : Option Nat :=
  match Number.natural? s with
  | some n => if n ≤ Signal.last then some n else none
  | none => if exitToo ∧ s.map Char.toUpper = "EXIT" then some 0 else Signal.ofName? s

/-- How a trap calls a signal. -/
def signalName (signal : Nat) : Text := if signal = 0 then "EXIT" else Signal.name signal

/-! ### Traps -/

def setTrap (action : Option Text) (signal : Nat) : Act Unit := do
  modify fun s =>
    let others := s.traps.filter (·.1 != signal)
    { s with traps := match action with
      | none => others
      | some a => (signal, a) :: others }
  if signal ≠ 0 then
    Act.os (Process.changeSelf fun p =>
      let others := p.ignored.filter (· != signal)
      { p with ignored := if action = some [] then signal :: others else others })

/-- Sets or takes away the traps for signals. -/
def setTraps (action : Option Text) : List Text → Act Nat
  | [] => return 0
  | name :: rest => do
    match signal? true name with
    | none =>
      Act.os (Process.warn ("trap: " ++ name ++ ": bad trap"))
      return 1
    | some signal =>
      setTrap action signal
      setTraps action rest

/-- Sets, takes away or shows traps. -/
def trap : Utility := fun arguments => do
  match (← Options.read [] arguments).rest with
  | [] =>
    let traps := (← get).traps.mergeSort fun a b => decide (a.1 ≤ b.1)
    Act.print (traps.flatMap fun (signal, action) =>
      "trap -- " ++ singleQuoted action ++ ' ' :: signalName signal ++ ['\n'])
  | action :: names =>
    if names.isEmpty ∨ (Number.natural? action).any (· ≤ Signal.last) then
      setTraps none (action :: names)
    else setTraps (if action = ['-'] then none else some action) names

/-! ### Sending -/

/-- Why nothing can be sent to a process. -/
def noProcess : Text := OsError.noProcess.description

/-- Sends a signal to a job that has not begun: it never will. -/
def killJob (number signal : Nat) (job : Job) : Job :=
  if job.number = number ∧ job.ending.isNone ∧ !Signal.isHarmless signal then
    { job with ending := some (.signal signal) }
  else job

def send (signal number : Nat) : Act Bool := do
  let s ← get
  let p := s.machine.process
  if number = p.number then
    if signal ≠ 0 then takeSignal signal
    return true
  else if p.parents.contains number then
    Act.os (Process.changeWorld fun w => { w with sent := (number, signal) :: w.sent })
    return true
  else if s.jobs.any fun j => j.number == number && j.ending.isNone then
    modify fun s => { s with jobs := s.jobs.map (killJob number signal) }
    return true
  else return false

/-- How `kill` is used. -/
def killUsage : Text :=
  "Usage: kill [-s sigspec | -signum | -sigspec] [pid | job]... or\nkill -l [exitstatus]"

/-- The number of the process that a word stands for.  A job is no group of processes, and so
cannot be sent anything as one. -/
def processOf (word : Text) : Act (Option Nat) := do
  match word with
  | '%' :: _ =>
    let _ ← jobOf word
    return none
  | '-' :: digits =>
    let _ ← Act.number digits
    return none
  | _ => return some (← Act.number word)

def sendAll (signal : Nat) : List Text → Nat → Act Nat
  | [], status => return status
  | word :: rest, status => do
    let sent ← match ← processOf word with
      | some number => send signal number
      | none => pure false
    if sent then sendAll signal rest status
    else
      Act.complain (noProcess ++ ['\n'])
      sendAll signal rest 1

/-- Shows the names of signals, or of the one by which a process ended. -/
def listSignals : Utility := fun arguments => do
  match arguments with
  | [] =>
    Act.print ("0\n" ++ (List.range Signal.last).flatMap fun k => Signal.name (k + 1) ++ ['\n'])
  | status :: _ =>
    let n ← Act.number status
    let n := if 128 < n then n - 128 else n
    if 0 < n ∧ n ≤ Signal.last then Act.print (Signal.name n ++ ['\n'])
    else Act.fail ("invalid signal number or exit status: " ++ status)

def kill : Utility := fun arguments => do
  let sendTo (signal : Nat) (words : List Text) : Act Nat :=
    if words.isEmpty then Act.fail killUsage else sendAll signal words 0
  match arguments with
  | [] => Act.fail killUsage
  | ('-' :: name) :: rest =>
    match signal? false name with
    | some signal => sendTo signal rest
    | none =>
      let o ← Options.read "ls:" arguments
      match o.word? 's', o.has 'l' with
      | none, true => listSignals o.rest
      | none, false => sendTo Signal.terminate o.rest
      | some name, isListed =>
        match signal? false name with
        | none => Act.fail ("invalid signal number or name: " ++ name)
        | some signal => if isListed then listSignals o.rest else sendTo signal o.rest
  | _ => sendTo Signal.terminate arguments

end NinjaPlan.Script.Utility
