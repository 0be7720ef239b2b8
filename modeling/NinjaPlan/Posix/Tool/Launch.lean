import NinjaPlan.Posix.Tool.Basic

/-! # Launching programs

The tools `env`, `timeout`, `nohup` and `nice` become another program after some preparation;
`xargs` runs one with words that it reads. -/

namespace NinjaPlan.Tool
namespace Launch

/-- The search path of a process that has none in its environment. -/
def defaultSearchPath : Text := "/bin:/usr/bin"

/-- Becomes the program of a name; gives the error if that is impossible. -/
def become (execute : Execute) (words : List Text) : Process OsError := do
  let searchPath := (← Process.environmentValue? "PATH").getD defaultSearchPath
  Execute.named execute searchPath (words.headD []) words

/-- The status of a tool that cannot become another program. -/
def failureStatus (e : OsError) : Nat := if e = .notFound then 127 else 126

/-- Becomes the program of a name, or says why that is impossible. -/
def launch (execute : Execute) (name attempt : Text) (words : List Text) : Process Nat := do
  let e ← become execute words
  failWith (failureStatus e) name (attempt ++ quoted (words.headD []) ++ ": " ++ e.description)

/-! ### Environments -/

def setValue (name value : Text) (environment : List (Text × Text)) : List (Text × Text) :=
  if (environment.lookup name).isSome then
    environment.map fun (n, v) => if n = name then (n, value) else (n, v)
  else environment ++ [(name, value)]

/-- Makes assignments before the first word that is none, in an environment. -/
def assignments : List Text → List (Text × Text) → List (Text × Text) × List Text
  | [], environment => (environment, [])
  | w :: rest, environment =>
    if w.contains '=' then
      let name := w.takeWhile (· != '=')
      assignments rest (setValue name (w.drop (name.length + 1)) environment)
    else (environment, w :: rest)

/-! ### Words from the input -/

/-- What separates words that are read. -/
inductive Separation where
  /-- Blanks, where quotes and backslashes protect them. -/
  | blanks
  /-- The breaks of lines, the blanks before which do not count. -/
  | lines
  | octet (c : Char)

/-- Reads a word up to a blank or a break; gives it if there is one, and the rest.  The number
bounds how many octets there are. -/
def wordFrom (isLine : Bool) : Nat → Text → Option Text → Except Text (Option Text × Text)
  | 0, s, found => .ok (found, s)
  | fuel + 1, s, found =>
    let more (t rest : Text) : Except Text (Option Text × Text) :=
      wordFrom isLine fuel rest (some (found.getD [] ++ t))
    let quotedBy (q : Char) (kind : Text) (rest : Text) : Except Text (Option Text × Text) :=
      let inner := rest.takeWhile fun c => c != q && c != '\n'
      if (rest.drop inner.length).head? = some q then more inner (rest.drop (inner.length + 1))
      else .error ("unmatched " ++ kind ++
        " quote; by default quotes are special to xargs unless you use the -0 option")
    match s with
    | [] => .ok (found, [])
    | '\\' :: c :: rest => more [c] rest
    | ['\\'] => .ok (found, [])
    | '\x27' :: rest => quotedBy '\x27' "single" rest
    | '\x22' :: rest => quotedBy '\x22' "double" rest
    | '\n' :: rest => .ok (found, rest)
    | c :: rest =>
      if !isLine ∧ Number.isSpace c then .ok (found, rest)
      else if isLine ∧ found.isNone ∧ Number.isSpace c then wordFrom isLine fuel rest found
      else more [c] rest

/-- The words of a text up to what is wrong with it; the number bounds how many there are. -/
def wordsFrom (isLine : Bool) : Nat → Text → List Text × Option Text
  | 0, _ => ([], none)
  | fuel + 1, s =>
    if s.isEmpty then ([], none)
    else
      match wordFrom isLine (s.length + 1) s none with
      | .error message => ([], some message)
      | .ok (word?, rest) =>
        let (words, message?) := wordsFrom isLine fuel rest
        (word?.toList ++ words, message?)

/-- The words of a text up to what is wrong with it. -/
def wordsOf (separation : Separation) (s : Text) : List Text × Option Text :=
  match separation with
  | .blanks => wordsFrom false (s.length + 1) s
  | .lines => wordsFrom true (s.length + 1) s
  | .octet c =>
    match (Text.pieces c s).reverse with
    | [] :: before => (before.reverse, none)
    | pieces => (pieces.reverse, none)

/-- Words in groups of at most a number; the first number bounds how many groups there are. -/
def groupsOf (size : Nat) : Nat → List Text → List (List Text)
  | 0, _ => []
  | fuel + 1, words =>
    if words.isEmpty then [] else words.take size :: groupsOf size fuel (words.drop size)

/-- A status that no program has: it could not be run. -/
def notRun : Nat := 0x100

/-- Runs commands one after another; gives the status of all of them.  One that cannot be run, or
that asks for it, ends them. -/
def runAll (execute : Execute) (name : Text) : List (List Text) → Nat → Process Nat
  | [], status => return status
  | words :: rest, status => do
    let command := words.headD []
    let (_, ending) ← Process.fork do
      Process.connect 0 (← Process.opened (.device .null))
      let e ← become execute words
      complain name (command ++ ": " ++ e.description)
      Process.exit (notRun + failureStatus e)
    Process.takeSignals
    match ending with
    | .status 0 => runAll execute name rest status
    | .status 255 => failWith 124 name (command ++ ": exited with status 255; aborting")
    | .status n => if notRun ≤ n then return n - notRun else runAll execute name rest 123
    | .signal n => failWith 125 name (command ++ ": terminated by signal " ++ Text.ofNat n)

end Launch

/-- Becomes a program with another environment, or prints the environment. -/
def env : Program := fun execute words => do
  let shape : Shape :=
    { letters := "iu:0C:v"
      names := [("ignore-environment", 'i'), ("unset", 'u'), ("null", '0'), ("chdir", 'C')]
      mixed := false
      status := 125 }
  let call ← readCall shape words
  let startsEmpty := call.has 'i' || call.operands.head? == some ['-']
  let operands := if call.operands.head? = some ['-'] then call.operands.drop 1 else call.operands
  let current := (← get).process.environment
  let kept := (if startsEmpty then [] else current).filter fun e => !(call.words 'u').contains e.1
  let (environment, command) := Launch.assignments operands kept
  Process.changeSelf fun p => { p with environment := environment }
  match call.word? 'C' with
  | some dir =>
    match (← Process.tree).directoryAt (← Process.directory) (Octets.toBytes dir) with
    | some loc => Process.changeSelf fun p => { p with directory := loc }
    | none =>
      failWith 125 call.name ("cannot change directory to " ++ quotedPath dir ++
        ": No such file or directory")
  | none => pure ()
  if command.isEmpty then
    let ending : Text := if call.has '0' then ['\x00'] else ['\n']
    emit call.name (environment.flatMap fun (n, v) => n ++ '=' :: v ++ ending)
    return 0
  else
    let e ← Launch.become execute command
    let file := command.headD []
    complain call.name (quoted file ++ ": " ++ e.description)
    if e = .notFound ∧ file.any Number.isSpace then
      complain call.name "use -[v]S to pass options in shebang lines"
    return Launch.failureStatus e

/-- Becomes a program that may run for some time; no program takes any. -/
def timeout : Program := fun execute words => do
  let shape : Shape :=
    { letters := "k:s:vfp"
      names := [("kill-after", 'k'), ("signal", 's'), ("verbose", 'v'), ("foreground", 'f'),
        ("preserve-status", 'p')]
      mixed := false
      status := 125 }
  let call ← readCall shape words
  match call.operands with
  | [] | [_] =>
    Process.warn ("Try " ++ quoted (call.name ++ " --help") ++ " for more information.")
    Process.exit 125
  | _ :: command => Launch.launch execute call.name "failed to run command " command

/-- Becomes a program that does not mind if nobody is there. -/
def nohup : Program := fun execute words => do
  let call ← readCall { letters := [], mixed := false, status := 125 } words
  if call.operands.isEmpty then misuse call.name "missing operand" 125
  Launch.launch execute call.name "failed to run command " call.operands

/-- Becomes a program that others may run before. -/
def nice : Program := fun execute words => do
  let shape : Shape :=
    { letters := "n:", names := [("adjustment", 'n')], mixed := false, status := 125 }
  let call ← readCall shape words
  if call.operands.isEmpty then
    emit call.name "0\n"
    return 0
  else Launch.launch execute call.name [] call.operands

def xargs : Program := fun execute words => do
  let shape : Shape :=
    { letters := "0rtxn:I:L:P:d:a:s:E:"
      names := [("null", '0'), ("no-run-if-empty", 'r'), ("max-args", 'n'), ("replace", 'I'),
        ("max-lines", 'L'), ("max-procs", 'P'), ("delimiter", 'd'), ("arg-file", 'a'),
        ("verbose", 't')]
      mixed := false }
  let call ← readCall shape words
  let input ← match ← readInput ((call.word? 'a').getD ['-']) with
    | .ok s => pure s
    | .error fault =>
      failWith 1 call.name ("Cannot open input file " ++
        plainComplaint (quoted ((call.word? 'a').getD [])) fault)
  let delimiter? := (call.word? 'd').map fun d =>
    if d == "\\n".toList then '\n' else if d == "\\0".toList then '\x00' else d.headD '\n'
  let separation : Launch.Separation :=
    if call.has '0' then .octet '\x00'
    else match delimiter?, call.word? 'I' with
      | some d, _ => .octet d
      | none, some _ => .lines
      | none, none => .blanks
  let (items, message?) := Launch.wordsOf separation input
  let command : List Text := if call.operands.isEmpty then ["echo"] else call.operands
  let commands := match call.word? 'I' with
    | some mark => items.map fun item =>
      command.take 1 ++ (command.drop 1).map (Text.replaceAll mark item)
    | none =>
      let size := (((call.word? 'n').orElse fun _ => call.word? 'L').bind Number.natural?).getD
        (items.length + 1)
      if items.isEmpty then (if call.has 'r' || message?.isSome then [] else [command])
      else (Launch.groupsOf size (items.length + 1) items).map (command ++ ·)
  if call.has 't' then
    commands.forM fun words => Process.warn ([' '].intercalate words)
  let status ← Launch.runAll execute call.name commands 0
  match message? with
  | some message => failWith 1 call.name message
  | none => return status

end NinjaPlan.Tool
