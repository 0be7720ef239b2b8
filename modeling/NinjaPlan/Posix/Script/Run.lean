import NinjaPlan.Posix.Script.Call
import NinjaPlan.Posix.Script.Redirection

/-! # Running commands

`Command` says what a shell is to do, and the functions here do it.  Each leaves the status of its
command in the shell.  Between commands the shell runs the traps whose signals have arrived; and
with the option `e` it ends at a failure that nothing looks at.

Commands hold commands: the functions take what runs those as a parameter, and `runCommand` ties
the knot.  Its fuel bounds how deep commands are nested. -/

namespace NinjaPlan.Script

/-- What a shell needs to run commands. -/
structure Engine where
  run : Runner
  execute : Execute

namespace Engine

def trapText (e : Engine) : Text → Act Bool := Act.runText e.run {}

/-- The output of commands, whose status is remembered. -/
def capture (e : Engine) : Act.Capture := fun body => do
  match body with
  | none => return []
  | some c =>
    let before := (← get).status
    let (found, ending) ← Act.output e.trapText (e.run { isLast := true } c)
    Act.takeEnding ending
    modify fun s => { s with substituted := s.status, status := before }
    return found

/-! ### Simple commands -/

/-- Makes assignments, which hold for the command only if they are transient; gives how a trace
shows them. -/
def assignAll (e : Engine) (transient exporting : Bool) : List (Text × Word) → Act (List Text)
  | [] => return []
  | (name, w) :: rest => do
    let value ← Act.textOf e.capture { tilde := true, tildes := true } w
    if transient then Act.makeLocal name
    Act.assign name value (transient || exporting)
    return (name ++ '=' :: value) :: (← assignAll e transient exporting rest)

/-- Shows a command where messages went before its redirections, if that is wanted. -/
def trace (messages : Option Nat) (words : List Text) : Act Unit := do
  if ← Act.isOn 'x' then
    let mark := (← Act.value? "PS4").getD []
    messages.forM fun n => do
      let _ ← Act.os (Process.writeFile n (mark ++ [' '].intercalate words ++ ['\n']))

/-- Runs a utility.  A fault of one that is not special does not end the shell. -/
def callUtility (e : Engine) (mode : Mode) (call : Call) : Act Unit := do
  let name := call.fields.headD []
  let arguments := call.fields.drop 1
  let named (t : String × Utility) : Bool := t.1.toList == name
  let utility : Utility :=
    if name = Call.callerName then Utility.describeCommand
    else match (Utility.table e.run e.execute mode).find? named with
      | some (_, u) => u
      | none => Utility.nothing 0
  let outer := (← get).utility
  modify fun s => { s with utility := some name }
  let outcome ← Act.attempt (utility arguments)
  modify fun s => { s with utility := outer }
  match outcome with
  | .ok status => Act.setStatus status
  | .error .failed =>
    if call.special then throw .failed
  | .error halt => throw halt

/-- Runs a program in a process of its own, or in place of the shell if nothing comes after. -/
def callProgram (e : Engine) (mode : Mode) (call : Call) (path : Text) : Act Unit := do
  let name := call.fields.headD []
  if !name.contains '/' && call.searchPath.isNone then Lookup.track name path
  let searchPath := call.searchPath.getD (← Lookup.searchPath)
  if mode.isLast && (← get).traps.isEmpty && (← get).jobs.isEmpty then
    Act.become e.execute searchPath call.fields
  else
    if (Path.mk name).fileName = some "sleep".toList then Act.runJobs
    Act.takeEnding (← Act.runInner e.trapText (Act.become e.execute searchPath call.fields))

/-- The greatest number of functions that call each other. -/
def callLimit : Nat := 1000

/-- Runs a function. -/
def callRoutine (e : Engine) (mode : Mode) (r : Routine) (arguments : List Text) : Act Unit := do
  let s ← get
  if callLimit ≤ s.calls then
    Act.fail ("Maximum function recursion depth (" ++ Text.ofNat callLimit ++ ") reached")
  set { s with arguments := arguments, optionPlace := {}, loops := 0, calls := s.calls + 1 }
  let outcome ← Act.attempt (Act.inScope (e.run { tested := mode.tested } r.body))
  modify fun after =>
    { after with
      arguments := s.arguments, optionPlace := s.optionPlace, loops := s.loops, calls := s.calls }
  match outcome with
  | .ok () | .error .back => return
  | .error halt => throw halt

/-- Runs what a command line calls. -/
def perform (e : Engine) (mode : Mode) (call : Call) : Act Unit := do
  match call.meaning with
  | .nothing reason =>
    Act.complain ((call.fields.headD []) ++ ": " ++ Lookup.describe reason)
    Act.setStatus 127
  | .program path _ => callProgram e mode call path
  | .utility _ => callUtility e mode call
  | .routine r => callRoutine e mode r (call.fields.drop 1)

/-- Ends the shell if the last command failed, nothing looks at that, and it is wanted. -/
def endAtFailure (mode : Mode) : Act Unit := do
  if !mode.tested && (← get).status != 0 then
    if ← Act.isOn 'e' then throw .stopped

/-- Runs a step with descriptors connected, which are put back afterwards unless they are to stay,
or another one where that is impossible. -/
def withConnections (connections : List (Nat × Connection)) (stay : Bool) (orElse : Act Unit)
    (step : Act Unit) : Act Unit := do
  let (before, possible) ← Act.connectAll false connections []
  let restore := Act.os (Act.reconnect before)
  if !possible then
    restore
    Act.setStatus Act.faultStatus
    orElse
  else if stay then
    step
  else Act.ensuring step restore

/-- Runs a simple command. -/
def simple (e : Engine) (mode : Mode) (assignments : List (Text × Word)) (words : List Word)
    (redirects : List Redirect) : Act Unit := do
  modify fun s => { s with substituted := 0 }
  let fields ← Call.fieldsOf e.capture words
  let call ← Call.ofFields fields
  let connections ← Act.connectionsOf e.capture redirects
  let isExec := call.fields.head? == some "exec".toList
  let messages ← Act.os (Process.connected? 2)
  let body : Act Unit := do
    let made ← assignAll e call.transient (isExec && 1 < call.fields.length) assignments
    trace messages (made ++ fields)
    if fields.isEmpty then Act.setStatus (← get).substituted
    else perform e mode call
  withConnections connections isExec (if call.special then throw .failed else pure ())
    (if call.transient && !assignments.isEmpty then Act.inScope body else body)

/-! ### Loops -/

/-- Whether a loop goes on after what became of a round. -/
def goesOn : Except Halt Unit → Act Bool
  | .ok () => return true
  | .error (.again n) => if n ≤ 1 then return true else throw (.again (n - 1))
  | .error (.leave n) => if n ≤ 1 then return false else throw (.leave (n - 1))
  | .error halt => throw halt

/-- Runs a step as a loop, which can be left. -/
def asLoop (step : Act Unit) : Act Unit := do
  modify fun s => { s with loops := s.loops + 1 }
  Act.ensuring step (modify fun s => { s with loops := s.loops - 1 })

/-- Runs a body for each of some fields. -/
def forEach (e : Engine) (mode : Mode) (name : Text) (body : Command) : List Text → Act Unit
  | [] => return
  | field :: rest => do
    Act.assign name field
    if ← goesOn (← Act.attempt (e.run { tested := mode.tested } body)) then
      forEach e mode name body rest

/-- Runs a round of a loop with a test: `none` once the loop is over; otherwise the status of the
body. -/
def round (e : Engine) (mode : Mode) (whileFalse : Bool) (test body : Command) (last : Nat) :
    Act (Nat ⊕ Nat) := do
  let tested ← Act.attempt (e.run { tested := true } test)
  match tested with
  | .ok () =>
    if ((← get).status == 0) == whileFalse then return .inr last
    else
      let goes ← goesOn (← Act.attempt (e.run { tested := mode.tested } body))
      let status := (← get).status
      return if goes then .inl status else .inr status
  | _ => return if ← goesOn tested then .inl last else .inr last

def loop (e : Engine) (mode : Mode) (whileFalse : Bool) (test body : Command) : Act Unit := do
  let rounds : Act Nat := fun s =>
    Act.iterateWith 0 (fun last s => (round e mode whileFalse test body last).run s)
      Act.endless 0 s
  Act.setStatus (← rounds)

/-! ### Selections -/

def matchesAny (e : Engine) (subject : Text) : List Word → Act Bool
  | [] => return false
  | w :: rest => do
    if Pattern.isMatch (← Act.patternOf e.capture w) subject then return true
    else matchesAny e subject rest

/-- Runs the first arm whose patterns match a text. -/
def choose (e : Engine) (mode : Mode) (subject : Text) :
    List (List Word × Option Command) → Act Unit
  | [] => Act.setStatus 0
  | (patterns, body) :: rest => do
    if ← matchesAny e subject patterns then
      match body with
      | some c => e.run mode c
      | none => Act.setStatus 0
    else choose e mode subject rest

/-! ### Pipelines -/

/-- The number of octets that a pipe holds. -/
def pipeRoom : Nat := 0x100000

/-- Keeps in mind where the program of a command of a pipeline is, if its name is written plainly. -/
def trackProgram (c : Command) : Act Unit := do
  match c with
  | .simple _ _ (w :: _) _ =>
    match (plainText? w).filter isName with
    | none => return
    | some name =>
      match ← Lookup.meaning name with
      | .program path _ => Lookup.track name path
      | _ => return
  | _ => return

/-- Runs the commands of a pipeline, each with the output of the one before as its input; gives
how the last of them ends. -/
def stages (e : Engine) (mode : Mode) : Option Nat → List Command → Act Ending
  | _, [] => return .status 0
  | input, c :: rest => do
    trackProgram c
    let sink ← if rest.isEmpty then pure none
      else some <$> Act.os (Process.opened (.sink [] (some pipeRoom)))
    let ending ← Act.runInner e.trapText do
      input.forM fun n => Act.os (Process.connect 0 n)
      sink.forM fun n => Act.os (Process.connect 1 n)
      e.run { mode with isLast := true } c
    match sink with
    | none => return ending
    | some n =>
      let written ← Act.os (Process.contents n)
      stages e mode (some (← Act.os (Process.opened (.source written)))) rest

/-- Starts commands that are not waited for; their input is empty. -/
def start (e : Engine) (body : Act Unit) : Act Unit := do
  Act.startInner e.trapText do
    Act.os (Process.connect 0 (← Act.os (Process.opened (.device .null))))
    body
  Act.setStatus 0

/-- Connects descriptors for the rest of a shell, which ends if that is impossible. -/
def connectFor (connections : List (Nat × Connection)) : Act Unit := do
  let (_, possible) ← Act.connectAll true connections []
  if !possible then throw .failed

/-! ### All commands -/

/-- Runs a command, the checks around it aside. -/
def command (e : Engine) (mode : Mode) : Command → Act Unit
  | .simple line assignments words redirects => do
    modify fun s => { s with line := line }
    simple e mode assignments words redirects
  | .pipeline commands background => do
    if background then
      start e do Act.takeEnding (← stages e {} none commands)
    else Act.takeEnding (← stages e mode none commands)
  | .negation body => do
    e.run { tested := true } body
    Act.setStatus (if (← get).status = 0 then 1 else 0)
  | .conjunction first second => do
    e.run { tested := true } first
    if (← get).status = 0 then e.run mode second
  | .disjunction first second => do
    e.run { tested := true } first
    if (← get).status ≠ 0 then e.run mode second
  | .sequence first second => do
    e.run { tested := mode.tested } first
    e.run mode second
  | .redirected line body redirects => do
    modify fun s => { s with line := line }
    let connections ← Act.connectionsOf e.capture redirects
    withConnections connections false (endAtFailure mode) (e.run { tested := mode.tested } body)
  | .subshell line body redirects => do
    modify fun s => { s with line := line }
    let connections ← Act.connectionsOf e.capture redirects
    Act.takeEnding (← Act.runInner e.trapText do
      connectFor connections
      e.run { mode with isLast := true } body)
  | .background line body redirects => do
    modify fun s => { s with line := line }
    let connections ← Act.connectionsOf e.capture redirects
    start e do
      connectFor connections
      e.run { isLast := true } body
  | .choice test yes no => do
    e.run { tested := true } test
    if (← get).status = 0 then e.run mode yes
    else match no with
      | some c => e.run mode c
      | none => Act.setStatus 0
  | .loop whileFalse test body => asLoop (loop e mode whileFalse test body)
  | .forEach line name words body => do
    modify fun s => { s with line := line }
    let fields ← Act.fieldsOfAll e.capture words
    if fields.isEmpty then Act.setStatus 0
    asLoop (forEach e mode name body fields)
  | .select line subject arms => do
    modify fun s => { s with line := line }
    let text ← Act.textOf e.capture { tilde := true } subject
    choose e mode text arms
  | .define line name body => do
    modify fun s =>
      { s with
        routines := (name, ⟨line, body⟩) :: s.routines.filter (·.1 != name)
        tracked := s.tracked.filter (·.1 != name) }
    Act.setStatus 0

/-- Whether the shell may end at a failure of a command. -/
def isChecked : Command → Bool
  | .simple .. | .pipeline .. | .subshell .. | .background .. => true
  | _ => false

/-- Runs a command and looks at what came of it; with the option `n` nothing is run any more. -/
def checked (e : Engine) (mode : Mode) (c : Command) : Act Unit := do
  if ← Act.isOn 'n' then return
  Act.runTraps e.run
  e.command mode c
  Act.runTraps e.run
  if isChecked c then endAtFailure mode

end Engine

/-- Runs a command; the fuel bounds how deep commands are nested. -/
def runCommand (execute : Execute) : Nat → Runner
  | 0, _, _ => Act.fail "out of memory"
  | fuel + 1, mode, c => Engine.checked ⟨runCommand execute fuel, execute⟩ mode c

end NinjaPlan.Script
