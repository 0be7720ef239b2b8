import NinjaPlan.Posix.Script.Run

/-! # The shell as a program

A shell is called with options, and with a script: as the name of a file, as a text behind an
option, or on its standard input. -/

namespace NinjaPlan.Script
namespace Shell

/-- How a shell is called. -/
structure Invocation where
  /-- The script is the first of the words. -/
  isText : Bool := false
  words : List Text

/-- Reads the options in the letters of a word. -/
def readLetters (on : Bool) : Text → Invocation → Act Invocation
  | [], i => return i
  | 'c' :: letters, i => readLetters on letters { i with isText := true }
  | 'l' :: letters, i => readLetters on letters i
  | 'o' :: letters, i => do
    let words ← Utility.turnLetters on ['o'] i.words
    readLetters on letters { i with words := words }
  | c :: letters, i => do
    Utility.turnLetter on c
    readLetters on letters i

/-- Reads the options of a call; the number bounds how many words there are. -/
def readOptions : Nat → Invocation → Act Invocation
  | 0, i => return i
  | fuel + 1, i => do
    match i.words with
    | ['-'] :: rest | ['-', '-'] :: rest => return { i with words := rest }
    | ('-' :: letters) :: rest =>
      readOptions fuel (← readLetters true letters { i with words := rest })
    | ('+' :: letters) :: rest =>
      readOptions fuel (← readLetters false letters { i with words := rest })
    | _ => return i

/-- The script in a file. -/
def scriptOf (path : Text) : Act Text := do
  match ← Act.os (Process.openPath path { access := { reads := true } }) with
  | .error e => Act.cannotOpen .read path e
  | .ok n =>
    match ← Act.os (Process.readFile n none) with
    | .ok script => return script
    | .error _ => return []

def standardInput : Act Text := do
  match ← Act.os (Process.read 0) with
  | .ok script => return script
  | .error _ => return []

/-- Gives the shell a name and arguments. -/
def callIt (name : Text) (arguments : List Text) : Act Unit :=
  modify fun s => { s with name := name, arguments := arguments }

/-- Runs the script that a shell is called with. -/
def body (run : Runner) (arguments : List Text) : Act Unit := do
  let i ← readOptions (arguments.length + 1) { words := arguments }
  let runScript (mode : Mode) (script : Text) : Act Unit := do
    modify fun s => { s with line := 1 }
    let _ ← Act.runLines run mode (!i.isText) script
  match i.isText, i.words with
  | true, [] => Act.fail "-c requires an argument"
  | true, script :: rest =>
    match rest with
    | name :: arguments => callIt name arguments
    | [] => pure ()
    runScript { isLast := !(← Act.isOn 's') } script
  | false, [] =>
    Act.turn 's' true
    runScript {} (← standardInput)
  | false, name :: rest =>
    if ← Act.isOn 's' then
      callIt (← get).name i.words
      runScript {} (← standardInput)
    else
      let script ← scriptOf name
      callIt name rest
      runScript {} script

/-- A variable of the environment as one of the shell. -/
def exported (name value : Text) : Text × Variable :=
  (name, { value := some value, exported := true })

/-- The path of the directory that a process is in, as its environment tells it if that is right. -/
def startPath (m : Machine) : Text :=
  let here := m.process.directory
  match m.process.environment.lookup "PWD".toList with
  | some path =>
    if path.head? = some '/' ∧ m.world.tree.directoryAt here (Octets.toBytes path) = some here then
      path
    else Utility.physicalPath here
  | none => Utility.physicalPath here

/-- The variables that every shell has to begin with, with the values that it starts from. -/
def ownVariables (m : Machine) : List (Text × Variable) :=
  let own (name : String) (value : Text) : Text × Variable := (name.toList, { value := some value })
  [own "IFS" " \t\n", own "OPTIND" "1", own "PPID" (Text.ofNat (m.process.parents.headD 0)),
    own "PS1" "# ", own "PS2" "> ", own "PS4" "+ ",
    exported "PWD" (startPath m)]

def startVariables (m : Machine) : List (Text × Variable) :=
  let own := ownVariables m
  let given := m.process.environment.filter fun v =>
    isName v.1 && (own.lookup v.1).isNone
  let path : List (Text × Variable) :=
    if (given.lookup "PATH".toList).isSome then []
    else [("PATH".toList, { value := some Lookup.standardPath })]
  own ++ path ++ given.map fun (name, value) => exported name value

def start (name : Text) (m : Machine) : Session where
  machine := m
  name := name
  leader := m.process.number
  line := 0
  values := startVariables m
  path := startPath m

/-- How deep commands may be nested. -/
def depthLimit : Nat := 1000000

def program : Program := fun execute arguments => do
  let run := runCommand execute depthLimit
  let m ← get
  Act.live (Act.runText run {}) (body run (arguments.drop 1)) (start (arguments.headD []) m)
  return 0

end Shell
end NinjaPlan.Script
