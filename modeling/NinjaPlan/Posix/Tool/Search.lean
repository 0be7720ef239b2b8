import NinjaPlan.Posix.Text.Regex
import NinjaPlan.Posix.Tool.Basic

/-! # Searching for lines

The tool `grep` prints the lines of its input in which a pattern matches. -/

namespace NinjaPlan.Tool
namespace Search

/-- The options of the tool. -/
def shape : Shape where
  letters := "EFGPe:f:iyvwxclLqsnHhobram:A:B:C:RIzZTU"
  names := [
    ("extended-regexp", 'E'), ("fixed-strings", 'F'), ("basic-regexp", 'G'), ("regexp", 'e'),
    ("file", 'f'), ("ignore-case", 'i'), ("invert-match", 'v'), ("word-regexp", 'w'),
    ("line-regexp", 'x'), ("count", 'c'), ("files-with-matches", 'l'),
    ("files-without-match", 'L'), ("quiet", 'q'), ("silent", 'q'), ("no-messages", 's'),
    ("line-number", 'n'), ("with-filename", 'H'), ("no-filename", 'h'), ("only-matching", 'o'),
    ("byte-offset", 'b'), ("recursive", 'r'), ("text", 'a'), ("max-count", 'm'),
    ("after-context", 'A'), ("before-context", 'B'), ("context", 'C'),
    ("dereference-recursive", 'R')]
  status := 2
  usage := some ("Usage: grep [OPTION]... PATTERNS [FILE]...\n" ++
    "Try 'grep --help' for more information.")

/-- What lines are searched for, and how they are shown. -/
structure Settings where
  call : Call
  pattern : Regex
  /-- The names of files are shown. -/
  named : Bool
  before : Nat
  after : Nat
  limit : Option Nat

/-- A line with its number and its place, counted in octets. -/
structure Line where
  text : Text
  number : Nat
  offset : Nat

/-- The lines of a text with their numbers and places. -/
def numbered : Nat → Nat → List Text → List Line
  | _, _, [] => []
  | number, offset, line :: rest =>
    ⟨line, number, offset⟩ :: numbered (number + 1) (offset + line.length + 1) rest

def isSelected (s : Settings) (line : Line) : Bool :=
  (s.pattern.search line.text).isSome != s.call.has 'v'

/-- The places and the texts of the matches in a line that are not empty; the number bounds how
many there are. -/
def matchesFrom (r : Regex) : Nat → Text → Text → List (Nat × Text)
  | 0, _, _ => []
  | fuel + 1, before, rest =>
    match r.searchFrom before rest with
    | none => []
    | some m =>
      match m.text, m.after with
      | [], [] => []
      | [], c :: after => matchesFrom r fuel (c :: m.before) after
      | text, after =>
        (m.before.length, text) :: matchesFrom r fuel (text.reverse ++ m.before) after

/-- What is shown before a line or a match. -/
def heading (s : Settings) (file : Text) (sign : Char) (number offset : Nat) : Text :=
  (if s.named then file ++ [sign] else []) ++
    (if s.call.has 'n' then Text.ofNat number ++ [sign] else []) ++
    (if s.call.has 'b' then Text.ofNat offset ++ [sign] else [])

/-- A wanted line as it is shown. -/
def showSelected (s : Settings) (file : Text) (line : Line) : Text :=
  if s.call.has 'o' then
    if s.call.has 'v' then []
    else (matchesFrom s.pattern (line.text.length + 1) [] line.text).flatMap fun (place, text) =>
      heading s file ':' line.number (line.offset + place) ++ text ++ ['\n']
  else heading s file ':' line.number line.offset ++ line.text ++ ['\n']

/-- Marks lines that are wanted, up to a limit, and tells how many there are. -/
def marked (s : Settings) : Option Nat → List Line → List (Line × Bool)
  | _, [] => []
  | limit, line :: rest =>
    let wanted := limit != some 0 && isSelected s line
    (line, wanted) :: marked s (if wanted then limit.map (· - 1) else limit) rest

/-- Shows lines that are wanted and those around them, given the lines before that have not been
shown (the last first), how many are still to be shown, and whether something has been. -/
def showAround (s : Settings) (file : Text) :
    List (Line × Bool) → List Line → Nat → Bool → List Text
  | [], _, _, _ => []
  | (line, true) :: rest, skipped, _, started =>
    let lead := skipped.take s.before
    let gap : List Text := if started && lead.length < skipped.length then ["--\n"] else []
    gap ++ lead.reverse.map (fun l => heading s file '-' l.number l.offset ++ l.text ++ ['\n']) ++
      showSelected s file line :: showAround s file rest [] s.after true
  | (line, false) :: rest, _, left + 1, started =>
    (heading s file '-' line.number line.offset ++ line.text ++ ['\n']) ::
      showAround s file rest [] left started
  | (line, false) :: rest, skipped, 0, started =>
    showAround s file rest (line :: skipped) 0 started

/-- What is printed of the number of lines in a file that are wanted. -/
def countLine (s : Settings) (file : Text) (count : Nat) : Text :=
  (if s.named then file ++ [':'] else []) ++ Text.ofNat count ++ ['\n']

/-- Whether a file is no text, which is said in place of its lines. -/
def isOpaque (s : Settings) (content : Text) : Bool :=
  !s.call.has 'a' && content.contains '\x00'

/-- What is printed of a file, and whether lines in it are wanted. -/
def report (s : Settings) (file content : Text) : Text × Bool :=
  let lines := marked s s.limit (numbered 1 0 (linesOf content))
  let count := lines.countP Prod.snd
  let found := count != 0
  let has (c : Char) : Bool := s.call.has c
  let name := file ++ ['\n']
  let text := if has 'q' then []
    else if has 'l' then (if found then name else [])
    else if has 'L' then (if found then [] else name)
    else if has 'c' then countLine s file count
    else if isOpaque s content then []
    else if s.before = 0 ∧ s.after = 0 then
      lines.flatMap fun (line, wanted) => if wanted then showSelected s file line else []
    else (showAround s file lines [] 0 false).flatten
  (text, found && !(has 'I' && isOpaque s content))

/-- The files below a directory, with their paths behind the one that is given. -/
def filesBelow (t : FileTree) (loc : Location) (path : Option Text) : List Text :=
  (t.contents loc).filterMap fun (name, e) =>
    match e with
    | .file .. =>
      some ((path.map fun p => if p.getLast? = some '/' then p else p ++ ['/']).getD [] ++
        Octets.ofBytes name)
    | _ => none

/-- The files that operands name, those below directories with them if wanted. -/
def filesToSearch (call : Call) : Process (List Text) := do
  let recursive := call.has 'r' || call.has 'R'
  if !recursive then return filesOf call.operands
  let t ← Process.tree
  let here ← Process.directory
  if call.operands.isEmpty then return filesBelow t here none
  return call.operands.flatMap fun path =>
    match t.directoryAt here (Octets.toBytes path) with
    | some loc => filesBelow t loc (some path)
    | none => [path]

/-- Searches files; tells whether lines are found, and whether something went wrong. -/
def searchFiles (s : Settings) : List Text → Bool → Bool → Process (Bool × Bool)
  | [], found, failed => return (found, failed)
  | file :: rest, found, failed => do
    match ← readInput file with
    | .error fault =>
      if !s.call.has 's' then complain s.call.name (plainComplaint file fault)
      match fault with
      | .unread _ => if s.call.has 'c' then emit s.call.name (countLine s file 0)
      | .unopened _ => pure ()
      searchFiles s rest found true
    | .ok content =>
      let shown : Text := if file = ['-'] then "(standard input)" else file
      let (text, here) := report s shown content
      emit s.call.name text
      if here && isOpaque s content && !"qlLc".toList.any s.call.has then
        complain s.call.name (shown ++ ": binary file matches")
      if here && s.call.has 'q' then return (true, false)
      searchFiles s rest (found || here) failed

/-- The expression of a text of patterns, one in a line. -/
def patternOf (call : Call) (extended fixed : Bool) (s : Text) : Except Text Regex := do
  let folds := call.has 'i' || call.has 'y'
  let style : Regex.Style := { extended := extended, folds := folds, lenient := true }
  let parts ← (Text.pieces '\n' s).mapM fun line =>
    if fixed then pure (Regex.ofText folds line) else (Regex.parse style line).map Prod.fst
  let whole := Regex.anyOf parts
  return if call.has 'x' then whole.between .start .finish
    else if call.has 'w' then whole.between .notBehindWord .notBeforeWord
    else whole

end Search

/-- Prints the lines in which patterns match, which are written in the extended manner, or stand
for themselves, if nothing else is asked for. -/
def grep (extended fixed : Bool) : Program := fun _ words => do
  let spelled := words.flatMap fun w => match w with
    | '-' :: c :: rest =>
      if (c :: rest).all Char.isDigit then ["-C".toList, c :: rest] else [w]
    | _ => [w]
  let call ← readCall Search.shape spelled
  let name := call.name
  let number (letters : List Char) : Process (Option Nat) := do
    match (call.options.reverse.find? fun o => letters.contains o.1) with
    | none => return none
    | some (letter, w) =>
      match Number.natural? w with
      | some n => return some n
      | none =>
        failWith 2 name (if letter = 'm' then "invalid max count"
          else w ++ ": invalid context length argument")
  let before ← number ['B', 'C']
  let after ← number ['A', 'C']
  let limit ← number ['m']
  let given ← (call.options.filter fun o => o.1 == 'e' || o.1 == 'f').mapM fun (letter, w) => do
    if letter = 'e' then return w
    match ← readInput w with
    | .ok s => return if s.getLast? = some '\n' then s.dropLast else s
    | .error fault => failWith 2 name (plainComplaint w fault)
  let (pattern, operands) ← match given, call.operands with
    | [], [] =>
      Process.warn (Search.shape.usage.getD [])
      Process.exit 2
    | [], pattern :: files => pure (pattern, files)
    | given, files => pure (['\n'].intercalate given, files)
  let call := { call with operands := operands }
  let manner? := (call.options.reverse.find? fun o => "EFGP".toList.contains o.1).map Prod.fst
  let extended := match manner? with
    | some letter => letter == 'E' || letter == 'P'
    | none => extended
  let fixed := match manner? with
    | some letter => letter == 'F'
    | none => fixed
  match Search.patternOf call extended fixed pattern with
  | .error message => failWith 2 name message
  | .ok r =>
    let files ← Search.filesToSearch call
    let several := 1 < files.length || call.has 'r' || call.has 'R'
    let named := (call.options.reverse.find? fun o => o.1 == 'H' || o.1 == 'h').elim several
      fun o => o.1 == 'H'
    let settings : Search.Settings :=
      ⟨call, r, named, before.getD 0, after.getD 0, limit⟩
    let (found, failed) ← Search.searchFiles settings files false false
    return if failed then 2 else if found then 0 else 1

end NinjaPlan.Tool
