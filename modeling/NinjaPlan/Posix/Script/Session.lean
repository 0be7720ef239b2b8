import NinjaPlan.Posix.Process.Machine
import NinjaPlan.Posix.Script.Arithmetic
import NinjaPlan.Posix.Script.Syntax

/-! # The state of a shell

A shell is a process that runs a script.  Beside what every process has, it has variables,
functions, arguments, options and traps.  A step of it is a function of `Act`, which may end a
loop, a function or the whole shell.

A fault in a script ends the shell with status 2, after a message that names the script and the
line; where it comes from a utility that is not special, the shell goes on. -/

namespace NinjaPlan.Script

structure Variable where
  value : Option Text
  exported : Bool := false
  readOnly : Bool := false

/-- A function of a script. -/
structure Routine where
  line : Nat
  body : Command

/-- What a function has to put back when it ends. -/
inductive Saved where
  | variable (name : Text) (before : Option Variable)
  | flags (before : List Char)

/-- A command that is not waited for and has not begun yet. -/
structure Job where
  number : Nat
  body : Process Unit
  ending : Option Ending := none
  /-- The shell has waited for it, so it is forgotten when its place is needed. -/
  waited : Bool := false

/-- How far the words of a command line have been looked through for options. -/
structure OptionPlace where
  /-- The index of the next word, from one. -/
  index : Nat := 1
  /-- How much of the word before that has been looked through, if it may hold more options. -/
  offset : Option Nat := none

/-- How much of something a process may use; `none` if that is not limited. -/
structure Limit where
  soft : Option Nat := none
  hard : Option Nat := none

/-- The state of a shell. -/
structure Session where
  machine : Machine
  /-- What messages call the shell. -/
  name : Text
  /-- The process that began the script. -/
  leader : Nat
  values : List (Text × Variable) := []
  routines : List (Text × Routine) := []
  aliases : List (Text × Text) := []
  arguments : List Text := []
  flags : List Char := []
  status : Nat := 0
  line : Nat := 1
  /-- The line up to which the running text has been read. -/
  readLine : Nat := 1
  /-- The utility that is running. -/
  utility : Option Text := none
  traps : List (Nat × Text) := []
  /-- Signals whose traps have not run yet. -/
  trapped : List Nat := []
  /-- The number of loops around the command. -/
  loops : Nat := 0
  /-- The number of functions that are running. -/
  calls : Nat := 0
  /-- What the running functions have to put back, the innermost first. -/
  scopes : List (List Saved) := []
  optionPlace : OptionPlace := {}
  /-- The status of the last command whose output was put into a word. -/
  substituted : Nat := 0
  documents : List (Nat × Word) := []
  nextDocument : Nat := 0
  jobs : List Job := []
  lastJob : Option Nat := none
  /-- The directory of the shell, as it was come to. -/
  path : Text := []
  /-- The programs that have been found, by their names. -/
  tracked : List (Text × Text) := []
  /-- The mode mask, which is only shown. -/
  mask : Nat := 0o022
  /-- The limits that have been set, by their letters, the last one first. -/
  limits : List (Char × Limit) := []

/-- Why a shell does not go on with the next command. -/
inductive Halt where
  /-- The shell ends as it was told to: with a status, or with that of the last command. -/
  | exited (status : Option Nat)
  /-- The shell ends with the status it has. -/
  | stopped
  /-- A fault, which has been reported. -/
  | failed
  /-- The process has ended. -/
  | ended (e : Ending)
  /-- A number of loops is left. -/
  | leave (loops : Nat)
  /-- A number of loops is left but for the last, which goes on with its next round. -/
  | again (loops : Nat)
  /-- A function or a script that was read in ends. -/
  | back
deriving DecidableEq

/-- A step of a shell. -/
abbrev Act := ExceptT Halt (StateM Session)

namespace Act

def os {α : Type} (step : Process α) : Act α := fun s =>
  let (result, machine) := step.run s.machine
  (result.mapError Halt.ended, { s with machine := machine })

/-- Runs a step and then another one, whatever becomes of the first. -/
def ensuring {α : Type} (step : Act α) (after : Act Unit) : Act α := fun s =>
  let (result, s) := step.run s
  match result with
  | .ok a =>
    match after.run s with
    | (.ok (), s) => (.ok a, s)
    | (.error e, s) => (.error e, s)
  | .error e =>
    match after.run s with
    | (.ok (), s) => (.error e, s)
    | (.error later, s) => (.error later, s)

/-- Runs a step and tells why it did not come to its end, if it did not. -/
def attempt {α : Type} (step : Act α) : Act (Except Halt α) := fun s =>
  let (result, s) := step.run s
  (.ok result, s)

/-! ### Messages -/

/-- Says something about a script. -/
def complain (message : Text) : Act Unit := do
  let s ← get
  let who := match s.utility with
    | none => []
    | some name => name ++ ": "
  os <| Process.warn (s.name ++ ": " ++ Text.ofNat s.line ++ ": " ++ who ++ message)

def faultStatus : Nat := 2

def setStatus (status : Nat) : Act Unit := modify fun s => { s with status := status }

/-- Reports a fault, which ends the utility. -/
def fail {α : Type} (message : Text) : Act α := do
  complain message
  setStatus faultStatus
  throw .failed

/-- Writes to standard output; a utility that cannot fails. -/
def print (octets : Text) : Act Nat := do
  match ← os (Process.write 1 octets) with
  | none => return 0
  | some _ =>
    complain (((← get).utility.getD []) ++ ": I/O error")
    return 1

/-- A number that a utility is given. -/
def number (text : Text) : Act Nat := do
  match Number.decimal? text with
  | some n =>
    if 0 ≤ n ∧ n ≤ 2147483647 then return n.toNat
    else fail ("Illegal number: " ++ text)
  | none => fail ("Illegal number: " ++ text)

/-! ### Options -/

/-- The options of a shell with their letters, in the order in which they are shown. -/
def optionNames : List (Option Char × String) :=
  [(some 'e', "errexit"), (some 'f', "noglob"), (some 'I', "ignoreeof"), (some 'i', "interactive"),
    (some 'm', "monitor"), (some 'n', "noexec"), (some 's', "stdin"), (some 'x', "xtrace"),
    (some 'v', "verbose"), (some 'V', "vi"), (some 'E', "emacs"), (some 'C', "noclobber"),
    (some 'a', "allexport"), (some 'b', "notify"), (some 'u', "nounset"),
    (some 'p', "privileged"), (none, "nolog"), (none, "debug")]

/-- Whether an option is on. -/
def isOn (letter : Char) : Act Bool := return (← get).flags.contains letter

/-- Turns an option on or off. -/
def turn (letter : Char) (on : Bool) : Act Unit := modify fun s =>
  let others := s.flags.filter (· != letter)
  { s with flags := if on then letter :: others else others }

/-- The letters of the options that are on, the last first. -/
def shownFlags : Act Text := do
  let on := (← get).flags
  return ((optionNames.filterMap Prod.fst).filter on.contains).reverse

/-! ### Variables -/

def binding? (name : Text) : Act (Option Variable) := return (← get).values.lookup name

def value? (name : Text) : Act (Option Text) := return (← binding? name).bind Variable.value

def insert (name : Text) (v : Variable) : List (Text × Variable) → List (Text × Variable)
  | [] => [(name, v)]
  | (other, w) :: rest =>
    if other = name then (name, v) :: rest else (other, w) :: insert name v rest

def putVariable (name : Text) (v : Variable) : Act Unit :=
  modify fun s => { s with values := insert name v s.values }

/-- Reports that a variable cannot be changed. -/
def readOnly {α : Type} (name : Text) : Act α := fail (name ++ ": is read only")

/-- Gives a variable a value, and exports it if wanted. -/
def assign (name value : Text) (exporting : Bool := false) : Act Unit := do
  let old := (← binding? name).getD { value := none }
  if old.readOnly then readOnly name
  if name = "OPTIND" then
    let index ← number value
    modify fun s => { s with optionPlace := { index := max index 1 } }
  let exported := old.exported || exporting || (← isOn 'a')
  putVariable name { old with value := some value, exported := exported }
  if name = "PATH" then modify fun s => { s with tracked := [] }

/-- Takes a variable away. -/
def remove (name : Text) : Act Unit := do
  match ← binding? name with
  | none => return
  | some old =>
    if old.readOnly then readOnly name
    if name = "OPTIND" then
      let _ ← number []
    modify fun s => { s with values := s.values.filter (·.1 != name) }

/-- Has the innermost function put a variable back when it ends. -/
def makeLocal (name : Text) : Act Unit := do
  let saved ← if name = "-" then pure (Saved.flags (← get).flags)
    else pure (Saved.variable name (← binding? name))
  modify fun s =>
    match s.scopes with
    | [] => s
    | scope :: outer => { s with scopes := (saved :: scope) :: outer }

/-- Puts back what was saved, the last first. -/
def restore : List Saved → Act Unit
  | [] => return
  | .variable name before :: rest => do
    modify fun s => { s with
      values := match before with
        | some v => insert name v s.values
        | none => s.values.filter (·.1 != name) }
    restore rest
  | .flags before :: rest => do
    modify fun s => { s with flags := before }
    restore rest

def inScope {α : Type} (step : Act α) : Act α := do
  modify fun s => { s with scopes := [] :: s.scopes }
  ensuring step do
    match (← get).scopes with
    | [] => return
    | scope :: outer =>
      restore scope
      modify fun s => { s with scopes := outer }

/-- The variables that programs are given. -/
def exports : Act (List (Text × Text)) := do
  let exported (v : Text × Variable) : Option (Text × Text) :=
    if v.2.exported then v.2.value.map (Prod.mk v.1) else none
  return (← get).values.filterMap exported

/-- The octets at which fields are cut. -/
def separators : Act Text := return (← value? "IFS").getD " \t\n"

end Act
end NinjaPlan.Script
