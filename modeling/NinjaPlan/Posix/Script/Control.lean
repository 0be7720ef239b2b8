import NinjaPlan.Posix.Process.Execute
import NinjaPlan.Posix.Script.Child
import NinjaPlan.Posix.Script.Grammar
import NinjaPlan.Posix.Script.Lookup
import NinjaPlan.Posix.Script.Utility.Directory
import NinjaPlan.Posix.Script.Utility.Limits
import NinjaPlan.Posix.Script.Utility.Names
import NinjaPlan.Posix.Script.Utility.Output
import NinjaPlan.Posix.Script.Utility.Read

/-! # Running texts, and the utilities that control a shell

A text is read and run command by command, so that what comes before a fault still runs and a
command may change how those after it are read.

The utilities here run commands, or decide which command comes next: `eval`, `.`, `exec`, `exit`,
`return`, `break`, `continue` and `wait`. -/

namespace NinjaPlan.Script

namespace Act

/-- Repeats a step until it tells that there is no more to do; the number bounds how often. -/
def iterate (step : Session → Except Halt Bool × Session) :
    Nat → Session → Except Halt Unit × Session
  | 0, s => (.ok (), s)
  | n + 1, s =>
    match step s with
    | (.ok true, s) => iterate step n s
    | (.ok false, s) => (.ok (), s)
    | (.error e, s) => (.error e, s)

/-- More repetitions than a shell has time for. -/
def endless : Nat := 0x7FFFFFFFFFFF

/-- Repeats a step as long as it tells to. -/
def repeatWhile (step : Act Bool) : Act Unit := fun s => iterate (fun s => step.run s) endless s

/-! ### Texts -/

/-- Repeats a step with a state until it gives something else. -/
def iterateWith {σ α : Type} (final : α) (step : σ → Session → Except Halt (σ ⊕ α) × Session) :
    Nat → σ → Session → Except Halt α × Session
  | 0, _, s => (.ok final, s)
  | n + 1, state, s =>
    match step state s with
    | (.ok (.inl state), s) => iterateWith final step n state s
    | (.ok (.inr a), s) => (.ok a, s)
    | (.error e, s) => (.error e, s)

/-- Shows what has been read of a script, up to the end of its line, if that is wanted. -/
def showRead (fromFile : Bool) (before rest : Text) : Act Unit := do
  if fromFile && (← isOn 'v') then
    let read := before.take (before.length - rest.length)
    let line := if read.isEmpty ∨ read.getLast? = some '\n' then []
      else rest.takeWhile (· != '\n') ++ (rest.dropWhile (· != '\n')).take 1
    let _ ← os (Process.write 2 (read ++ line))

def nextCommand (fromFile : Bool) (r : Reader) : Act NextCommand := do
  let s ← get
  match Reader.nextCommand { r with aliases := s.aliases, nextDocument := s.nextDocument } with
  | .error fault =>
    showRead fromFile r.rest fault.rest
    modify fun s => { s with line := fault.line }
    fail ("Syntax error: " ++ fault.message)
  | .ok next => return next

def takeDocuments (r : Reader) : Act Reader := do
  modify fun s =>
    { s with documents := r.documents ++ s.documents, nextDocument := r.nextDocument }
  return { r with documents := [] }

/-- Reads and runs the commands of the next line; gives the reader behind them.  At the end,
tells whether there were commands. -/
def runLine (run : Runner) (mode : Mode) (fromFile : Bool) (r : Reader) (any : Bool) :
    Act (Reader × Bool ⊕ Bool) := do
  match ← nextCommand fromFile r with
  | .nothing => return .inr any
  | .blank after =>
    showRead fromFile r.rest after.rest
    return .inl (← takeDocuments after, any)
  | .command c after =>
    showRead fromFile r.rest after.rest
    let after ← takeDocuments after
    modify fun s => { s with readLine := after.line }
    run { mode with isLast := mode.isLast && after.rest.isEmpty } c
    return .inl (after, true)

/-- Runs the commands of a text or a file; tells whether there are any. -/
def runLines (run : Runner) (mode : Mode) (fromFile : Bool) (text : Text) : Act Bool := do
  let outer := (← get).readLine
  let lines : Act Bool := fun s =>
    iterateWith false (fun (r, any) s => (runLine run mode fromFile r any).run s) endless
      (Reader.ofScript text, false) s
  ensuring lines (modify fun s => { s with readLine := outer })

/-- Runs the commands of a text; tells whether there are any. -/
def runText (run : Runner) (mode : Mode) (text : Text) : Act Bool := runLines run mode false text

/-- Runs the commands of a text or a file, of which none is a success. -/
def evaluateLines (run : Runner) (mode : Mode) (fromFile : Bool) (text : Text) : Act Nat := do
  if ← runLines run mode fromFile text then return (← get).status else return 0

/-! ### Traps -/

def runTrap (run : Runner) (signal : Nat) : Act Unit := do
  match (← get).traps.lookup signal with
  | none => return
  | some action =>
    let before := (← get).status
    match ← attempt (runText run {} action) with
    | .ok _ => setStatus before
    | .error (.exited none) => throw (.exited (some before))
    | .error e => throw e

/-- Runs the traps for signals that have arrived. -/
def runTraps (run : Runner) : Act Unit := do
  match (← get).trapped with
  | [] => return
  | signals =>
    modify fun s => { s with trapped := [] }
    (signals.mergeSort fun a b => decide (a ≤ b)).forM (runTrap run)

/-! ### Programs -/

/-- Runs a program in place of the shell; gives why that is impossible.  A file that is no program
is taken for a script. -/
def executeFile (execute : Execute) (path : Text) (arguments : List Text) : Act OsError := do
  let given ← exports
  os do
    Process.changeSelf fun p => { p with environment := given }
    match ← execute path arguments with
    | .execFormat => execute "/bin/sh" ("/bin/sh".toList :: path :: arguments.drop 1)
    | e => return e

/-- Runs the first program of a name in the directories that can be run. -/
def executeIn (execute : Execute) (arguments : List Text) (name : Text) :
    OsError → List Text → Act OsError
  | e, [] => return e
  | e, dir :: dirs => do
    let failure ← executeFile execute (Lookup.inDirectory dir name) arguments
    executeIn execute arguments name (Lookup.remember e failure) dirs

/-- The status of a shell that cannot run a program. -/
def failureStatus (e : OsError) : Nat :=
  match e with
  | .notFound | .notDirectory | .tooManyLinks | .nameTooLong => 127
  | _ => 126

/-- Runs a program in place of the shell, which ends in any case. -/
def become {α : Type} (execute : Execute) (searchPath : Text) (arguments : List Text) : Act α := do
  let name := arguments.headD []
  let e ← if name.contains '/' then executeFile execute name arguments
    else executeIn execute arguments name .notFound (Text.pieces ':' searchPath)
  complain (name ++ ": " ++ Lookup.describe e)
  setStatus (failureStatus e)
  throw .stopped

end Act

/-! ### Utilities -/

namespace Utility

def eval (run : Runner) (mode : Mode) : Utility := fun arguments =>
  Act.evaluateLines run mode false ([' '].intercalate arguments)

def scriptPath (name : Text) : Act Text := do
  if name.contains '/' then return name
  else
    let t ← Act.os Process.tree
    let here ← Act.os Process.directory
    let isFile (dir : Text) : Option Text :=
      let path := Lookup.inDirectory dir name
      match t.entryAt here (Octets.toBytes path) with
      | .ok (.file ..) => some path
      | _ => none
    match (Text.pieces ':' (← Lookup.searchPath)).findSome? isFile with
    | some path => return path
    | none => Act.fail (name ++ ": not found")

/-- Runs the commands of a file. -/
def source (run : Runner) (mode : Mode) : Utility := fun arguments => do
  match (← Options.read [] arguments).rest with
  | [] => return 0
  | name :: _ =>
    let path ← scriptPath name
    let t ← Act.os Process.tree
    let here ← Act.os Process.directory
    match t.readFile here (Octets.toBytes path) with
    | .error e =>
      let message := match e with
        | .os .notFound | .os .notDirectory => "No such file".toList
        | .os e => e.description
        | e => e.message
      Act.fail ("cannot open " ++ path ++ ": " ++ message)
    | .ok content =>
      modify fun s => { s with utility := some path }
      let script := Octets.ofBytes content
      match ← Act.attempt (Act.evaluateLines run { mode with isLast := false } true script) with
      | .ok status => return status
      | .error .back => return (← get).status
      | .error e => throw e

/-- Runs a program in place of the shell, if one is given. -/
def exec (execute : Execute) : Utility := fun arguments => do
  match (← Options.read [] arguments).rest with
  | [] => return 0
  | words => Act.become execute (← Lookup.searchPath) words

/-- Ends the shell. -/
def exit : Utility := fun arguments => do
  match arguments with
  | [] => throw (.exited none)
  | status :: _ => throw (.exited (some (← Act.number status)))

/-- Ends a function, or a script that was read in. -/
def returnBack : Utility := fun arguments => do
  match arguments with
  | [] => pure ()
  | status :: _ => Act.setStatus (← Act.number status)
  throw .back

def leaveLoops (halt : Nat → Halt) : Utility := fun arguments => do
  let count ← match arguments with
    | [] => pure 1
    | n :: _ =>
      let count ← Act.number n
      if count = 0 then Act.fail ("Illegal number: " ++ n) else pure count
  let around := (← get).loops
  if around = 0 then return 0
  Act.setStatus 0
  throw (halt (min count around))

def waitFor : List Text → Nat → Act Nat
  | [], status => return status
  | word :: rest, _ => do
    let number ← if word.head? = some '%' then pure (← jobOf word).number else Act.number word
    match ← Act.runJob number with
    | none => waitFor rest 127
    | some ending =>
      Act.takeEnding ending
      Act.markWaited (· == number)
      waitFor rest (← get).status

/-- Waits for jobs, or for all of them. -/
def wait : Utility := fun arguments => do
  match (← Options.read [] arguments).rest with
  | [] =>
    Act.runJobs
    Act.markWaited fun _ => true
    return 0
  | words => waitFor words 0

def nothing (status : Nat) : Utility := fun _ => return status

def table (run : Runner) (execute : Execute) (mode : Mode) : List (String × Utility) := [
  (".", source run mode), (":", nothing 0), ("[", bracket), ("alias", setAliases), ("bg", control),
  ("break", leaveLoops .leave), ("cd", cd), ("chdir", cd), ("continue", leaveLoops .again),
  ("echo", echo), ("eval", eval run mode), ("exec", exec execute), ("exit", exit),
  ("export", exportNames), ("false", nothing 1), ("fg", control), ("getopts", getopts),
  ("hash", hash), ("jobs", jobs), ("kill", kill), ("local", localNames),
  ("printf", printf), ("pwd", pwd), ("read", read), ("readonly", readonlyNames),
  ("return", returnBack), ("set", setOptions), ("shift", shift), ("test", test), ("times", times),
  ("trap", trap), ("true", nothing 0), ("type", type), ("ulimit", ulimit), ("umask", umask),
  ("unalias", unalias), ("unset", unset), ("wait", wait)]

end Utility
end NinjaPlan.Script
