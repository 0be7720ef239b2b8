import NinjaPlan.Posix.Script.Fields
import NinjaPlan.Posix.Script.Utility.Basic

/-! # Variables, options and arguments

The utilities that change what a shell keeps for itself: `export`, `readonly`, `unset`, `local`,
`set`, `shift` and `getopts`. -/

namespace NinjaPlan.Script.Utility

/-- The name and the value in an argument that may assign one. -/
def splitAssignment (argument : Text) : Text × Option Text :=
  let name := argument.takeWhile (· != '=')
  (name, if name.length < argument.length then some (argument.drop (name.length + 1)) else none)

/-- Fails unless a text is the name of a variable. -/
def checkName (name : Text) : Act Unit := do
  if !isName name then
    let _ ← Act.fail (α := Unit) (name ++ ": bad variable name")

/-- The name of a variable in an argument, where an equals sign may follow it. -/
def nameOf (argument : Text) : Act Text := do
  let name := (splitAssignment argument).1
  checkName name
  return name

/-- Gives a variable a value after a look at its name. -/
def define (argument value : Text) : Act Unit := do Act.assign (← nameOf argument) value

def mark (exporting readOnly : Bool) (argument : Text) : Act Unit := do
  let (name, value) := splitAssignment argument
  checkName name
  match value with
  | some v => Act.assign name v exporting
  | none => pure ()
  let old := (← Act.binding? name).getD { value := none }
  Act.putVariable name
    { old with exported := old.exported || exporting, readOnly := old.readOnly || readOnly }

/-- A variable as a script would set it. -/
def showVariable (before : Text) (name : Text) (v : Variable) : Text :=
  before ++ name ++ (match v.value with
    | none => []
    | some value => '=' :: singleQuoted value) ++ ['\n']

/-- The variables of a kind as a script would set them, in the order of their names. -/
def showVariables (before : Text) (kind : Variable → Bool) : Act Text := do
  let shown := (← get).values.filter fun v => kind v.2
  let names := inOrder (shown.map Prod.fst)
  return names.flatMap fun name =>
    match shown.lookup name with
    | some v => showVariable before name v
    | none => []

/-- Marks variables, or shows those that are marked.  Once that is asked for, the rest of the
arguments does not matter. -/
def marking (name : Text) (exporting : Bool) : Utility := fun arguments => do
  let showsAll := match arguments with
    | ('-' :: 'p' :: _) :: _ => true
    | _ => false
  let names ← if showsAll then pure [] else pure (← Options.read [] arguments).rest
  if names.isEmpty then
    Act.print (← showVariables (name ++ [' ']) fun v =>
      if exporting then v.exported else v.readOnly)
  else
    names.forM (mark exporting !exporting)
    return 0

def exportNames : Utility := marking "export" true

/-- Protects variables. -/
def readonlyNames : Utility := marking "readonly" false

/-- Takes variables or functions away. -/
def unset : Utility := fun arguments => do
  let o ← Options.read "vf" arguments
  let functions := o.found.getLast?.any fun f => f.1 == 'f'
  o.rest.forM fun name => do
    if functions then
      modify fun s => { s with routines := s.routines.filter (·.1 != name) }
    else Act.remove (← nameOf name)
  return 0

/-- Makes variables those of the running function. -/
def localNames : Utility := fun arguments => do
  if (← get).scopes.isEmpty then
    let _ ← Act.fail (α := Unit) "not in a function"
  arguments.forM fun argument => do
    if argument = ['-'] then Act.makeLocal argument
    else
      let (name, value) := splitAssignment argument
      checkName name
      Act.makeLocal name
      match value with
      | some v => Act.assign name v
      | none =>
        if (← Act.binding? name).isNone then Act.putVariable name { value := none }
  return 0

/-! ### Options of the shell -/

/-- The letter that stands for an option; one without a letter has its name's first character in
upper case. -/
def letterOf (o : Option Char × String) : Char :=
  o.1.getD ((o.2.toList.headD '-').toUpper)

def turnLetter (on : Bool) (letter : Char) : Act Unit := do
  if Act.optionNames.any fun o => o.1 == some letter then Act.turn letter on
  else
    let _ ← Act.fail (α := Unit) ("Illegal option -" ++ [letter])

def turnNamed (on : Bool) (name : Text) : Act Unit := do
  match Act.optionNames.find? fun o => o.2.toList == name with
  | some o => Act.turn (letterOf o) on
  | none =>
    let _ ← Act.fail (α := Unit) ("Illegal option -o " ++ name)

def showOptions (on : Bool) : Act Unit := do
  let flags := (← get).flags
  let line (o : Option Char × String) : Text :=
    let isOn := flags.contains (letterOf o)
    let name := o.2.toList
    if on then
      name ++ List.replicate (16 - name.length) ' ' ++ (if isOn then "on\n" else "off\n")
    else "set " ++ (if isOn then "-o " else "+o ") ++ name ++ "\n"
  let heading : Text := if on then "Current option settings\n" else []
  let _ ← Act.print (heading ++ Act.optionNames.flatMap line)

/-- Turns the options on or off whose letters are given; gives the arguments that are left. -/
def turnLetters (on : Bool) : Text → List Text → Act (List Text)
  | [], rest => return rest
  | 'o' :: letters, rest => do
    match rest with
    | [] =>
      showOptions on
      turnLetters on letters []
    | name :: rest =>
      turnNamed on name
      turnLetters on letters rest
  | c :: letters, rest => do
    turnLetter on c
    turnLetters on letters rest

/-- Turns options on or off; gives the arguments that are left, if there are to be any.  The
number bounds how many words there are. -/
def turnOptions : Nat → List Text → Act (Option (List Text))
  | 0, rest => return some rest
  | fuel + 1, rest => do
    match rest with
    | [] => return none
    | ['-'] :: rest =>
      Act.turn 'x' false
      Act.turn 'v' false
      return if rest.isEmpty then none else some rest
    | ['-', '-'] :: rest => return some rest
    | ('-' :: letters) :: rest => turnOptions fuel (← turnLetters true letters rest)
    | ('+' :: letters) :: rest => turnOptions fuel (← turnLetters false letters rest)
    | _ => return some rest

/-- Gives the shell other arguments. -/
def setArguments (arguments : List Text) : Act Unit :=
  modify fun s => { s with arguments := arguments, optionPlace := {} }

/-- Turns options on or off and gives the shell other arguments, or shows the variables. -/
def setOptions : Utility := fun arguments => do
  if arguments.isEmpty then
    Act.print (← showVariables [] fun v => v.value.isSome)
  else
    match ← turnOptions (arguments.length + 1) arguments with
    | none => return 0
    | some rest =>
      setArguments rest
      return 0

/-- Drops the first arguments of the shell. -/
def shift : Utility := fun arguments => do
  let n ← match arguments with
    | [] => pure 1
    | count :: _ => Act.number count
  let s ← get
  if s.arguments.length < n then
    let _ ← Act.fail (α := Unit) "can't shift that many"
  setArguments (s.arguments.drop n)
  return 0

/-! ### Looking through arguments -/

/-- What a look for an option comes to. -/
structure OptionFound where
  letter : Char := '?'
  isLast : Bool := false
  /-- Where the next look begins. -/
  place : OptionPlace
  /-- The word of the option, if it is set. -/
  word : Option Text := none
  complaint : Option Text := none

/-- The option with a letter, when the letters behind it and the words from an index on are left. -/
def optionOf (allow : Text) (words : List Text) (letter : Char) (letters : Text) (index : Nat) :
    OptionFound :=
  let quiet := allow.head? == some ':'
  let size := ((words[index - 2]?).getD []).length
  let inWord : OptionPlace := { index := index, offset := some (size - letters.length) }
  match Options.allowed letter allow, letters, words[index - 1]? with
  | none, _, _ =>
    { place := inWord, word := if quiet then some [letter] else none
      complaint := if quiet then none else some ("Illegal option -" ++ [letter]) }
  | some false, _, _ => { letter := letter, place := inWord, word := some [] }
  | some true, [], none =>
    if quiet then { letter := ':', place := { index := index }, word := some [letter] }
    else
      { place := { index := index }
        complaint := some ("No arg for -" ++ [letter] ++ " option") }
  | some true, [], some w =>
    { letter := letter, place := { index := index + 1 }, word := some w }
  | some true, _, _ => { letter := letter, place := { index := index }, word := some letters }

/-- Looks for the next option in words, which need not be those where the last one was found. -/
def nextOption (allow : Text) (words : List Text) (place : OptionPlace) : OptionFound :=
  let index := place.index
  let left : Text := match place.offset with
    | some seen => if 2 ≤ index then ((words[index - 2]?).getD []).drop seen else []
    | none => []
  match left, words[index - 1]? with
  | letter :: letters, _ => optionOf allow words letter letters index
  | [], some ['-', '-'] => { isLast := true, place := { index := index + 1 } }
  | [], some ('-' :: letter :: letters) => optionOf allow words letter letters (index + 1)
  | [], _ => { isLast := true, place := { index := index } }

/-- Gives a variable the next option of the arguments. -/
def getopts : Utility := fun arguments => do
  match arguments with
  | allow :: name :: words =>
    let s ← get
    let words := if words.isEmpty then s.arguments else words
    let place := if words.length + 1 < s.optionPlace.index then {} else s.optionPlace
    let found := nextOption allow words place
    match found.complaint with
    | none => pure ()
    | some message => Act.os (Process.warn message)
    match found.word, found.isLast with
    | some w, _ => Act.assign "OPTARG" w
    | none, true => pure ()
    | none, false => Act.remove "OPTARG"
    Act.assign "OPTIND" (Text.ofNat found.place.index)
    modify fun s => { s with optionPlace := {} }
    define name [found.letter]
    modify fun s => { s with optionPlace := found.place }
    return if found.isLast then 1 else 0
  | _ => Act.fail "Usage: getopts optstring var [arg...]"

end NinjaPlan.Script.Utility
