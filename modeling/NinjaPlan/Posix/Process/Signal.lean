import NinjaPlan.Text.Basic

/-! # Signals

The signals of the system: their numbers, their names, what they are described as, and which of
them do a process no harm. -/

namespace NinjaPlan.Signal

/-- A signal: its number, its name, and how messages describe it. -/
structure Entry where
  number : Nat
  name : Text
  description : Text

/-- The signals that have names. -/
def all : List Entry := [
  ⟨1, "HUP", "Hangup"⟩, ⟨2, "INT", "Interrupt"⟩, ⟨3, "QUIT", "Quit"⟩,
  ⟨4, "ILL", "Illegal instruction"⟩, ⟨5, "TRAP", "Trace/breakpoint trap"⟩,
  ⟨6, "ABRT", "Aborted"⟩, ⟨7, "BUS", "Bus error"⟩, ⟨8, "FPE", "Floating point exception"⟩,
  ⟨9, "KILL", "Killed"⟩, ⟨10, "USR1", "User defined signal 1"⟩,
  ⟨11, "SEGV", "Segmentation fault"⟩, ⟨12, "USR2", "User defined signal 2"⟩,
  ⟨13, "PIPE", "Broken pipe"⟩, ⟨14, "ALRM", "Alarm clock"⟩, ⟨15, "TERM", "Terminated"⟩,
  ⟨16, "STKFLT", "Stack fault"⟩, ⟨17, "CHLD", "Child exited"⟩, ⟨18, "CONT", "Continued"⟩,
  ⟨19, "STOP", "Stopped (signal)"⟩, ⟨20, "TSTP", "Stopped"⟩, ⟨21, "TTIN", "Stopped (tty input)"⟩,
  ⟨22, "TTOU", "Stopped (tty output)"⟩, ⟨23, "URG", "Urgent I/O condition"⟩,
  ⟨24, "XCPU", "CPU time limit exceeded"⟩, ⟨25, "XFSZ", "File size limit exceeded"⟩,
  ⟨26, "VTALRM", "Virtual timer expired"⟩, ⟨27, "PROF", "Profiling timer expired"⟩,
  ⟨28, "WINCH", "Window changed"⟩, ⟨29, "IO", "I/O possible"⟩, ⟨30, "PWR", "Power failure"⟩,
  ⟨31, "SYS", "Bad system call"⟩]

/-- The signal that a writer takes whose reader has gone. -/
def pipe : Nat := 13

/-- The signal that nothing stops. -/
def kill : Nat := 9

/-- The signal that is sent unless another is asked for. -/
def terminate : Nat := 15

/-- The numbers of the real-time signals, which have no names of their own. -/
def firstRealTime : Nat := 34

def last : Nat := 64

/-- The name of a real-time signal, by which it stands from the nearer end of them. -/
def realTimeName (number : Nat) : Text :=
  let fromFirst := number - firstRealTime
  let fromLast := last - number
  if number = firstRealTime then "RTMIN"
  else if number = last then "RTMAX"
  else if fromFirst ≤ fromLast then "RTMIN+" ++ Text.ofNat fromFirst
  else "RTMAX-" ++ Text.ofNat fromLast

/-- The signal that shells only call by its number. -/
def unnamed : Nat := 16

/-- How shells call a signal; one without a name is called by its number. -/
def name (number : Nat) : Text :=
  match all.find? fun s => s.number == number with
  | some s => if number = unnamed then Text.ofNat number else s.name
  | none =>
    if firstRealTime ≤ number ∧ number ≤ last then realTimeName number else Text.ofNat number

/-- The signal with a name, whatever the case of its letters. -/
def ofName? (s : Text) : Option Nat :=
  (List.range last).findSome? fun k =>
    if (name (k + 1)).map Char.toUpper = s.map Char.toUpper then some (k + 1) else none

/-- How messages describe a signal. -/
def description (number : Nat) : Text :=
  match all.find? fun s => s.number == number with
  | some s => s.description
  | none =>
    if firstRealTime ≤ number ∧ number ≤ last then
      "Real-time signal " ++ Text.ofNat (number - firstRealTime)
    else "Unknown signal " ++ Text.ofNat number

/-- Whether a process that takes no precautions survives the signal. -/
def isHarmless (number : Nat) : Bool := [0, 17, 18, 23, 28].contains number

end NinjaPlan.Signal
