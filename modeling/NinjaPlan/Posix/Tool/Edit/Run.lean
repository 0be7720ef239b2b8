import NinjaPlan.Posix.Tool.Edit.Read

/-! # Running scripts of the editor

The editor reads a line at a time into its buffer, runs the script on it, and prints what is then
in the buffer.  A second buffer keeps its content from line to line.

All input is given as lines at the start, and all that is written is gathered, so that running a
script is a function. -/

namespace NinjaPlan.Tool.Edit

/-- How a script is run. -/
structure Settings where
  quiet : Bool := false
  /-- What ends a line. -/
  separator : Char := '\n'
  /-- The width of lines that are shown plainly. -/
  width : Nat := 70
  /-- The contents of files that are read. -/
  files : List (Text × Text) := []

/-- A line of the input, and whether it is ended. -/
structure Line where
  text : Text
  ended : Bool := true

inductive RangeEnd where
  | line (n : Nat)
  | address (a : Address)

/-- What has become of a range: it goes on to an end, or is over. -/
inductive RangeState where
  | active (e : RangeEnd)
  | over

/-- What the editor remembers. -/
structure State where
  /-- The file that is read. -/
  name : Text := ['-']
  lines : List Line := []
  number : Nat := 0
  buffer : Line := ⟨[], true⟩
  held : Line := ⟨[], true⟩
  /-- Whether something has been replaced since a line was read. -/
  replaced : Bool := false
  /-- What is printed after the line, the last first. -/
  later : List Text := []
  lastPattern : Option Regex := none
  ranges : List (Nat × RangeState) := []
  /-- What has been printed, the last first. -/
  printed : List Text := []
  /-- The last line that was printed is not ended yet. -/
  unended : Bool := false
  /-- What has been written to files, the last first. -/
  written : List (Text × Text) := []

/-- A step of the editor, which may find that something is wrong. -/
abbrev Editing := ExceptT Text (StateM State)

/-- How a script goes on after a command. -/
inductive Flow where
  | on
  | jumpTo (place : Nat)
  /-- With the next line, after printing or not. -/
  | nextLine (prints : Bool)
  /-- With the same line. -/
  | again
  | quit (status : Nat) (prints : Bool)

/-! ### Output -/

/-- Prints octets, on a line of their own. -/
def printRaw (settings : Settings) (s : Text) : Editing Unit := modify fun state =>
  let gap := if state.unended then [[settings.separator]] else []
  { state with printed := s :: gap ++ state.printed, unended := false }

def printLine (settings : Settings) (line : Line) : Editing Unit := do
  printRaw settings (if line.ended then line.text ++ [settings.separator] else line.text)
  modify fun state => { state with unended := !line.ended }

def writeLine (settings : Settings) (file : Text) (line : Line) : Editing Unit :=
  if file == "/dev/stdout".toList then printLine settings line
  else modify fun state =>
    { state with written := (file, line.text ++ [settings.separator]) :: state.written }

/-- Prints what was to be printed after the line. -/
def printLater (settings : Settings) : Editing Unit := do
  let later := (← get).later.reverse
  modify fun state => { state with later := [] }
  later.forM fun s => if s.isEmpty then pure () else printRaw settings s

/-- Ends the work on a line. -/
def finishLine (settings : Settings) (prints : Bool) : Editing Unit := do
  if prints && !settings.quiet then printLine settings (← get).buffer
  printLater settings

def nextInput? : Editing (Option Line) := do
  let state ← get
  match state.lines with
  | [] => return none
  | line :: lines =>
    set { state with lines := lines, number := state.number + 1, replaced := false }
    return some line

def readLine : Editing Bool := do
  match ← nextInput? with
  | none => return false
  | some line =>
    modify fun state => { state with buffer := line }
    return true

def changeBuffer (f : Text → Text) : Editing Unit := modify fun state =>
  { state with buffer := { state.buffer with text := f state.buffer.text } }

/-! ### Choosing lines -/

/-- A regular expression, or the last one that was used. -/
def resolve (r? : Option Regex) : Editing Regex := do
  match r?, (← get).lastPattern with
  | some r, _ =>
    modify fun state => { state with lastPattern := some r }
    return r
  | none, some r => return r
  | none, none => throw "no previous regular expression".toList

def tells (a : Address) : Editing Bool := do
  let state ← get
  match a with
  | .line n => return state.number == n
  | .every step first => return first ≤ state.number && (state.number - first) % step == 0
  | .last => return state.lines.isEmpty
  | .pattern r? => return ((← resolve r?).search state.buffer.text).isSome

/-- Sets what has become of the range of a command. -/
def setRange (place : Nat) (range : RangeState) : Editing Unit := modify fun state =>
  { state with ranges := (place, range) :: state.ranges.filter (·.1 != place) }

/-- The end of a range that begins at a line. -/
def rangeEnd (bound : Bound) (number : Nat) : RangeEnd :=
  match bound with
  | .address (.line n) => .line n
  | .address a => .address a
  | .further n => .line (number + n)
  | .multiple n => .line (if n = 0 then number else number + n - number % n)

/-- Whether the line is in the range of a command. -/
def isInRange (place : Nat) (first : Address) (bound : Bound) : Editing Bool := do
  let number := (← get).number
  let range : RangeState := match (← get).ranges.lookup place, first, bound with
    | none, .line 0, .address a => .active (.address a)
    | none, _, _ => .over
    | some range, _, _ => range
  match range with
  | .active (.line n) =>
    if n ≤ number then setRange place .over
    return number ≤ n
  | .active (.address a) =>
    if ← tells a then setRange place .over
    return true
  | .over =>
    if !(← tells first) then return false
    match rangeEnd bound number with
    | .line n => if number < n then setRange place (.active (.line n))
    | e => setRange place (.active e)
    return true

/-- Whether a command is for the line. -/
def isChosen (place : Nat) (choice : Choice) : Editing Bool := do
  let told ← match choice.first, choice.bound with
    | none, _ => pure true
    | some a, none => tells a
    | some a, some bound => isInRange place a bound
  return told != choice.negated

/-! ### Replacing -/

/-- How letters are to be changed: the next one, and all of them. -/
structure CasingState where
  next : Option Casing := none
  all : Casing := .plain

/-- An octet with its case changed. -/
def Casing.apply (casing : Casing) (c : Char) : Char :=
  match casing with
  | upper | nextUpper => c.toUpper
  | lower | nextLower => c.toLower
  | plain => c

def CasingState.apply (state : CasingState) (s : Text) : Text :=
  match state.next, s with
  | some next, c :: rest => next.apply c :: rest.map state.all.apply
  | _, _ => s.map state.all.apply

/-- What is put in place of a match. -/
def expandParts (m : Regex.Match) : CasingState → List Part → Text
  | _, [] => []
  | state, part :: rest =>
    let put (s : Text) : Text :=
      state.apply s ++ expandParts m (if s.isEmpty then state else { state with next := none }) rest
    match part with
    | .text s => put s
    | .group 0 => put m.text
    | .group n => put ((m.groups.lookup n).getD [])
    | .casing .nextUpper => expandParts m { state with next := some .nextUpper } rest
    | .casing .nextLower => expandParts m { state with next := some .nextLower } rest
    | .casing casing => expandParts m { state with all := casing } rest

/-- Replaces matches in the rest of a text, given how many there have been and whether the last
one ended here; tells whether something has been replaced.  The first number bounds how many
matches there are. -/
def replaceFrom (r : Regex) (s : Substitution) :
    Nat → Text → Text → Nat → Bool → Text × Bool
  | 0, _, rest, _, _ => (rest, false)
  | fuel + 1, before, rest, count, touches =>
    match r.searchFrom before rest with
    | none => (rest, false)
    | some m =>
      let skipped := rest.take (rest.length - m.text.length - m.after.length)
      if m.text.isEmpty && skipped.isEmpty && touches then
        match rest with
        | [] => ([], false)
        | c :: rest =>
          let (t, found) := replaceFrom r s fuel (c :: before) rest count false
          (c :: t, found)
      else
        let counts := s.number ≤ count + 1
        let piece := if counts then expandParts m {} s.parts else m.text
        if counts && !s.all then (skipped ++ piece ++ m.after, true)
        else
          match m.text, m.after with
          | [], [] => (skipped ++ piece, counts)
          | [], c :: after =>
            let (t, found) := replaceFrom r s fuel (c :: m.before) after (count + 1) false
            (skipped ++ piece ++ c :: t, found || counts)
          | text, after =>
            let (t, found) :=
              replaceFrom r s fuel (text.reverse ++ m.before) after (count + 1) true
            (skipped ++ piece ++ t, found || counts)

/-- Replaces matches in the buffer. -/
def substitute (settings : Settings) (s : Substitution) : Editing Unit := do
  let r ← resolve s.pattern
  let text := (← get).buffer.text
  let (t, found) := replaceFrom r s (text.length + 2) [] text 0 false
  if found then
    changeBuffer fun _ => t
    modify fun state => { state with replaced := true }
    let line := (← get).buffer
    if s.prints then printLine settings line
    match s.file with
    | some file => writeLine settings file line
    | none => pure ()

/-! ### Commands -/

/-- A text in which all octets can be seen, in lines of a width. -/
def showLines (width : Nat) (s : Text) : Text :=
  let shown (c : Char) : Text :=
    match (Escape.letters.filter (·.1 != 'e')).find? (·.2 == c) with
    | some (letter, _) => ['\\', letter]
    | none =>
      if 0x20 ≤ c.toNat && c.toNat < 0x7F then [c]
      else
        let digits := Number.inBase 8 c.toNat
        '\\' :: List.replicate (3 - digits.length) '0' ++ digits
  let step (found : List Text × Nat) (piece : Text) : List Text × Nat :=
    if 1 < width ∧ width ≤ found.2 + piece.length then (piece :: "\\\n" :: found.1, piece.length)
    else (piece :: found.1, found.2 + piece.length)
  (s.foldl (fun found c => step found (shown c)) ([], 0)).1.reverse.flatten ++ "$\n"

/-- Two lines in one, which is ended as the second. -/
def joined (settings : Settings) (a b : Line) : Line :=
  ⟨a.text ++ settings.separator :: b.text, b.ended⟩

def firstLine (settings : Settings) (s : Text) : Text := s.takeWhile (· != settings.separator)

/-- Does what a command at a place asks for. -/
def act (settings : Settings) (script : Script) (place : Nat) (action : Action) :
    Editing Flow := do
  let state ← get
  let text := state.buffer.text
  let jump (name : Text) : Flow :=
    .jumpTo (if name.isEmpty then script.length else (script.labelled? name).getD script.length)
  match action with
  | .substitute s => substitute settings s
  | .translate pairs => changeBuffer fun s => s.map fun c => (pairs.lookup c).getD c
  | .print => printLine settings state.buffer
  | .printFirst => printLine settings ⟨firstLine settings text, true⟩
  | .delete => return .nextLine false
  | .deleteFirst =>
    if !text.contains settings.separator then return .nextLine false
    changeBuffer fun s => s.drop ((firstLine settings s).length + 1)
    return .again
  | .next =>
    if state.lines.isEmpty then return .nextLine true
    finishLine settings true
    let _ ← readLine
  | .join =>
    match ← nextInput? with
    | none => return .nextLine true
    | some line =>
      printLater settings
      modify fun state => { state with buffer := joined settings state.buffer line }
  | .hold => set { state with held := state.buffer }
  | .holdMore => set { state with held := joined settings state.held state.buffer }
  | .recall => set { state with buffer := state.held }
  | .recallMore => set { state with buffer := joined settings state.buffer state.held }
  | .swap => set { state with buffer := state.held, held := state.buffer }
  | .clear => changeBuffer fun _ => []
  | .showNumber => printRaw settings (Text.ofNat state.number ++ ['\n'])
  | .showName => printRaw settings (state.name ++ ['\n'])
  | .showPlainly width => printRaw settings (showLines (width.getD settings.width) text)
  | .append s => set { state with later := s :: state.later }
  | .insert s => printRaw settings s
  | .change s =>
    match state.ranges.lookup place with
    | some (.active _) => pure ()
    | _ => printRaw settings s
    return .nextLine false
  | .readFile name =>
    set { state with later := (settings.files.lookup name).getD [] :: state.later }
  | .writeFile name onlyFirst =>
    writeLine settings name (if onlyFirst then ⟨firstLine settings text, true⟩ else state.buffer)
  | .quit status prints => return .quit status prints
  | .jump name => return jump name
  | .jumpIfReplaced name =>
    if !state.replaced then return .on
    set { state with replaced := false }
    return jump name
  | .jumpUnlessReplaced name =>
    if !state.replaced then return jump name
    set { state with replaced := false }
  | .label _ | .opening | .closing | .nothing => pure ()
  return .on

/-- Runs a script from a place on until it quits or there are no more lines; gives the status if
it quits.  The number bounds how many commands are run. -/
def runFrom (settings : Settings) (script : Script) : Nat → Nat → Editing (Option Nat)
  | 0, _ => return none
  | fuel + 1, place => do
    let goOn (prints : Bool) : Editing (Option Nat) := do
      finishLine settings prints
      if ← readLine then runFrom settings script fuel 0 else return none
    match script[place]? with
    | none => goOn true
    | some command =>
      if !(← isChosen place command.choice) then
        match command.action with
        | .opening => runFrom settings script fuel (script.behindBlock place)
        | _ => runFrom settings script fuel (place + 1)
      else
        match ← act settings script place command.action with
        | .on => runFrom settings script fuel (place + 1)
        | .jumpTo place => runFrom settings script fuel place
        | .nextLine prints => goOn prints
        | .again =>
          printLater settings
          runFrom settings script fuel 0
        | .quit status prints =>
          if prints then finishLine settings true
          return some status

/-- The greatest number of commands that are run for each line. -/
def commandLimit : Nat := 0x10000

/-- Runs a script on lines; gives the status if it quits. -/
def run (settings : Settings) (script : Script) (name : Text) (lines : List Line) :
    Editing (Option Nat) := do
  modify fun state => { state with name := name, lines := lines, number := 0 }
  if ← readLine then runFrom settings script (commandLimit * (lines.length + 1)) 0
  else return none

end NinjaPlan.Tool.Edit
