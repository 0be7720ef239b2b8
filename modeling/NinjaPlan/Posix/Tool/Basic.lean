import NinjaPlan.Posix.Process.Execute
import NinjaPlan.Posix.Tool.Quoting

/-! # Tools

The tools of the machine are programs that most scripts count on.  A tool is called with its name
and its arguments, reads files or standard input, prints, and gives a status. -/

namespace NinjaPlan.Tool

/-- Says something about the work of a tool. -/
def complain (name message : Text) : Process Unit := Process.warn (name ++ ": " ++ message)

/-- Says something about the work of a tool, and ends it. -/
def failWith {α : Type} (status : Nat) (name message : Text) : Process α := do
  complain name message
  Process.exit status

/-- Says how a tool was called wrongly, and ends it. -/
def misuse {α : Type} (name message : Text) (status : Nat := 1) : Process α := do
  complain name message
  Process.warn ("Try " ++ bareQuoted (name ++ " --help") ++ " for more information.")
  Process.exit status

/-- Prints octets; a tool that cannot ends. -/
def emit (name octets : Text) : Process Unit := do
  match ← Process.write 1 octets with
  | none => pure ()
  | some e => failWith 1 name ("write error: " ++ e.description)

/-! ### Options -/

/-- The options that a tool knows. -/
structure Shape where
  /-- The letters; those behind which there is a colon take a word, and those behind which there
  are two take what is left of theirs. -/
  letters : Text
  /-- The long names, with the letters that they stand for. -/
  names : List (String × Char) := []
  /-- Options may follow operands. -/
  mixed : Bool := true
  /-- The status of a tool that is called wrongly. -/
  status : Nat := 1
  /-- What is said of a wrong call beside what is wrong, if not the usual. -/
  usage : Option Text := none

/-- The options and the operands of a call. -/
structure Call where
  name : Text
  options : List (Char × Text) := []
  operands : List Text := []

namespace Call

def has (c : Call) (letter : Char) : Bool := c.options.any fun o => o.1 == letter

/-- The word of an option, the last one if it is given more than once. -/
def word? (c : Call) (letter : Char) : Option Text := c.options.reverse.lookup letter

def words (c : Call) (letter : Char) : List Text :=
  c.options.filterMap fun o => if o.1 = letter then some o.2 else none

end Call

/-- What an option takes. -/
inductive Need where
  | nothing
  | word
  /-- What is left of the word that it is given in. -/
  | remainder

/-- What the option of a letter takes, if the letter is known. -/
def need? (letter : Char) : Text → Option Need
  | [] => none
  | c :: ':' :: ':' :: rest => if c = letter then some .remainder else need? letter rest
  | c :: ':' :: rest => if c = letter then some .word else need? letter rest
  | c :: rest => if c = letter then some .nothing else need? letter rest

/-- Says how a tool was called wrongly, and ends it. -/
def Shape.misuse {α : Type} (shape : Shape) (name message : Text) : Process α := do
  match shape.usage with
  | none => Tool.misuse name message shape.status
  | some usage =>
    complain name message
    Process.warn usage
    Process.exit shape.status

/-- Reads the options in the letters of a word; gives them, last first, and the words left. -/
def readLetters (shape : Shape) (name : Text) : Text → List Text → List (Char × Text) →
    Process (List (Char × Text) × List Text)
  | [], rest, found => return (found, rest)
  | c :: letters, rest, found =>
    match need? c shape.letters with
    | none => shape.misuse name ("invalid option -- " ++ bareQuoted [c])
    | some .nothing => readLetters shape name letters rest ((c, []) :: found)
    | some .remainder => return ((c, letters) :: found, rest)
    | some .word =>
      match letters, rest with
      | [], [] => shape.misuse name ("option requires an argument -- " ++ bareQuoted [c])
      | [], w :: rest => return ((c, w) :: found, rest)
      | _, _ => return ((c, letters) :: found, rest)

/-- Reads a long option; gives it, and the words left. -/
def readName (shape : Shape) (name word : Text) (rest : List Text) :
    Process ((Char × Text) × List Text) := do
  let key := word.takeWhile (· != '=')
  let value? := if key.length < word.length then some (word.drop (key.length + 1)) else none
  let isKey (n : String × Char) : Bool := n.1.toList == key
  let starts := shape.names.filter fun n => key.isPrefixOf n.1.toList
  match shape.names.find? isKey, starts with
  | some (full, letter), _ | none, [(full, letter)] =>
    let shown := bareQuoted ("--" ++ full.toList)
    match need? letter shape.letters, value? with
    | some .word, some value | some .remainder, some value => return ((letter, value), rest)
    | some .word, none =>
      match rest with
      | [] => shape.misuse name ("option " ++ shown ++ " requires an argument")
      | w :: rest => return ((letter, w), rest)
    | _, none => return ((letter, []), rest)
    | _, some _ => shape.misuse name ("option " ++ shown ++ " doesn't allow an argument")
  | none, [] => shape.misuse name ("unrecognized option " ++ bareQuoted ("--" ++ key))
  | none, _ =>
    let candidates := starts.flatMap fun n => ' ' :: bareQuoted ("--" ++ n.1.toList)
    shape.misuse name
      ("option " ++ bareQuoted ("--" ++ key) ++ " is ambiguous; possibilities:" ++ candidates)

/-- Reads options and operands, behind those found, last first; the number bounds how many words
there are. -/
def readWords (shape : Shape) (name : Text) : Nat → List Text → List (Char × Text) →
    List Text → Process Call
  | 0, rest, options, operands =>
    return ⟨name, options.reverse, operands.reverse ++ rest⟩
  | fuel + 1, rest, options, operands => do
    match rest with
    | [] => return ⟨name, options.reverse, operands.reverse⟩
    | ['-', '-'] :: rest => return ⟨name, options.reverse, operands.reverse ++ rest⟩
    | ('-' :: '-' :: word) :: rest =>
      let (option, rest) ← readName shape name word rest
      readWords shape name fuel rest (option :: options) operands
    | ('-' :: c :: letters) :: rest =>
      let (options, rest) ← readLetters shape name (c :: letters) rest options
      readWords shape name fuel rest options operands
    | w :: rest =>
      if shape.mixed then readWords shape name fuel rest options (w :: operands)
      else return ⟨name, options.reverse, operands.reverse ++ w :: rest⟩

/-- Reads the options and the operands among the words of a call. -/
def readCall (shape : Shape) (words : List Text) : Process Call :=
  readWords shape (words.headD []) (words.length + 1) (words.drop 1) [] []

/-! ### Input -/

/-- Why a file could not be read. -/
inductive InputFault where
  | unopened (e : OsError)
  | unread (e : OsError)

def InputFault.error : InputFault → OsError
  | unopened e => e
  | unread e => e

/-- All that a file holds; a dash stands for standard input. -/
def readInput (file : Text) : Process (Except InputFault Text) := do
  if file = ['-'] then return (← Process.read 0).mapError .unread
  else
    match ← Process.openPath file { access := { reads := true } } with
    | .error e => return .error (.unopened e)
    | .ok n => return (← Process.readFile n none).mapError .unread

/-- What a tool says of a file that it cannot read, if it just says the error. -/
def plainComplaint (file : Text) (fault : InputFault) : Text :=
  file ++ ": " ++ fault.error.description

/-- What a tool says of a file that it cannot read, with its name as a shell would take it. -/
def pathComplaint (file : Text) (fault : InputFault) : Text := plainComplaint (shownPath file) fault

/-- Runs a step on each of some files; tells whether all could be read. -/
def forInputs (name : Text) (complaint : Text → InputFault → Text)
    (step : Text → Text → Process Unit) : List Text → Process Bool
  | [] => return true
  | file :: rest => do
    match ← readInput file with
    | .ok content =>
      step file content
      forInputs name complaint step rest
    | .error fault =>
      complain name (complaint file fault)
      let _ ← forInputs name complaint step rest
      return false

/-- The files that operands name; without any, standard input. -/
def filesOf (operands : List Text) : List Text := if operands.isEmpty then [['-']] else operands

/-- The contents of files, one after another, and whether all could be read. -/
def readAll (name : Text) (complaint : Text → InputFault → Text) :
    List Text → Process (Text × Bool)
  | [] => return ([], true)
  | file :: rest => do
    match ← readInput file with
    | .ok content =>
      let (more, all) ← readAll name complaint rest
      return (content ++ more, all)
    | .error fault =>
      complain name (complaint file fault)
      let (more, _) ← readAll name complaint rest
      return (more, false)

/-- Does something with each of some operands; tells whether all went well. -/
def forOperands (step : Text → Process Bool) : List Text → Process Bool
  | [] => return true
  | operand :: rest => do
    let one ← step operand
    let others ← forOperands step rest
    return one && others

/-- Changes the files; a tool that cannot says what it could not do. -/
def changeFiles (name attempt : Text) (f : FileTree → Location → Except OsError FileTree) :
    Process Bool := do
  match f (← Process.tree) (← Process.directory) with
  | .ok t =>
    Process.setTree t
    return true
  | .error e =>
    complain name (attempt ++ ": " ++ e.description)
    return false

/-- The status of a tool that did all it should, or not. -/
def statusOf (all : Bool) : Nat := if all then 0 else 1

/-! ### Lines -/

/-- The lines of a text, without their breaks; what follows the last break is a line if it is not
empty. -/
def linesOf (s : Text) : List Text :=
  match (Text.pieces '\n' s).reverse with
  | [] :: before => before.reverse
  | lines => lines.reverse

def linesWithBreaks (s : Text) : List Text :=
  match (Text.pieces '\n' s).reverse with
  | [] => []
  | last :: before =>
    (before.reverse.map (· ++ ['\n'])) ++ if last.isEmpty then [] else [last]

def unlines (lines : List Text) : Text := lines.flatMap (· ++ ['\n'])

/-- The order of texts by their octets. -/
def before (a b : Text) : Bool := !b.lex a fun c d => decide (c.toNat < d.toNat)

end NinjaPlan.Tool
