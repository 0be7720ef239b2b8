import NinjaPlan.Posix.Tool.Basic
import NinjaPlan.Posix.Tool.Edit.Run

/-! # The editor

The tool `sed` edits its input by a script.  Scripts are given by options, or as the first
operand. -/

namespace NinjaPlan.Tool
namespace Edit

/-- What is said of a wrong call. -/
def usage : Text :=
  "Usage: sed [OPTION]... \x7bscript-only-if-no-other-script\x7d [input-file]...\n"

/-- The options of the editor. -/
def shape : Shape where
  letters := "nde:f:Fi::l:pErsuzS"
  names := [
    ("quiet", 'n'), ("silent", 'n'), ("debug", 'd'), ("expression", 'e'), ("file", 'f'),
    ("follow-symlinks", 'F'), ("in-place", 'i'), ("line-length", 'l'), ("posix", 'p'),
    ("regexp-extended", 'E'), ("separate", 's'), ("unbuffered", 'u'), ("null-data", 'z'),
    ("sandbox", 'S')]
  usage := some usage

/-- The part of a script that is given at once, and what messages call it. -/
structure Source where
  /-- The number of an expression, or the name of a file. -/
  origin : Nat ⊕ Text
  text : Text

/-- How messages call a place in a source. -/
def Source.place (source : Source) (cursor : Cursor) : Text :=
  match source.origin with
  | .inl n => "-e expression #" ++ Text.ofNat n ++ ", char " ++ Text.ofNat cursor.taken
  | .inr file => "file " ++ file ++ " line " ++ Text.ofNat (cursor.breaks + 1)

/-- The sources that options give; an expression that ends in a backslash goes on in the next. -/
def sourcesOf (name : Text) : Nat → List (Char × Text) → Process (List Source)
  | _, [] => return []
  | count, (letter, word) :: rest => do
    if letter = 'f' then
      match ← readInput word with
      | .ok text => return ⟨.inr word, text⟩ :: (← sourcesOf name count rest)
      | .error fault => failWith 4 name ("couldn't open file " ++ plainComplaint word fault)
    else
      let sources ← sourcesOf name (count + 1) rest
      let isOpen := (word.reverse.takeWhile (· == '\\')).length % 2 = 1
      let alone : List Source := ⟨.inl (count + 1), word⟩ :: sources
      if !isOpen then return alone
      match sources with
      | ⟨.inl _, more⟩ :: sources =>
        return ⟨.inl (count + 1), word ++ '\n' :: more⟩ :: sources
      | _ => return alone

/-- The script that sources spell; ends the editor if something is wrong. -/
def compile (name : Text) (style : Regex.Style) : List Source → Nat → Process Script
  | [], _ => return []
  | source :: rest, depth => do
    match read style source.text depth with
    | (.error message, cursor) =>
      failWith 1 name (source.place cursor ++ ": " ++ message)
    | (.ok (script, depth), _) =>
      if rest.isEmpty ∧ depth ≠ 0 then
        failWith 1 name (source.place ⟨0, 0, []⟩ ++ ": unmatched `\x7b'")
      return script ++ (← compile name style rest depth)

def linesOfText (separator : Char) (s : Text) : List Line :=
  match (Text.pieces separator s).reverse with
  | [] => []
  | last :: before =>
    before.reverse.map (⟨·, true⟩) ++ if last.isEmpty then [] else [⟨last, false⟩]

def filesRead (script : Script) : List Text := script.filterMap fun c => match c.action with
  | .readFile name => some name
  | _ => none

def filesWritten (script : Script) : List Text :=
  (script.filterMap fun c => match c.action with
    | .substitute s => s.file
    | .writeFile name _ => some name
    | _ => none).filter (· != "/dev/stdout".toList)

/-- Puts text into a file; ends the editor if that is impossible. -/
def save (name file text : Text) (appends : Bool) : Process Unit := do
  let request : Process.OpenRequest :=
    { access := { writes := true, appends := appends }, creates := true, truncates := !appends }
  match ← Process.openPath file request with
  | .error e => failWith 4 name ("couldn't open file " ++ file ++ ": " ++ e.description)
  | .ok n =>
    let _ ← Process.writeFile n text

/-- Runs a script on the lines of a file behind others; gives what is printed, the new state, and
the status if the script quits.  Ends the editor if something is wrong. -/
def runOn (name : Text) (settings : Settings) (script : Script) (state : State) (file : Text)
    (lines : List Line) : Process (Text × State × Option Nat) := do
  let (result, after) := (run settings script file lines).run { state with printed := [] }
  let printed := after.printed.reverse.flatten
  after.written.reverse.forM fun (file, text) => save name file text true
  let after := { after with written := [] }
  match result with
  | .ok status? => return (printed, after, status?)
  | .error message =>
    emit name printed
    failWith 1 name ("-e expression #1, char 0: " ++ message)

/-- How the editor gets at its input. -/
structure Manner where
  name : Text
  settings : Settings
  script : Script
  /-- The ending of the names of copies, if files are changed in place. -/
  inPlace : Option Text
  /-- The files are not one after another in a row. -/
  separate : Bool

/-- The name of the copy of a file that is changed. -/
def copyName (ending file : Text) : Text :=
  if ending.contains '*' then Text.replaceAll ['*'] file ending else file ++ ending

def content? (m : Manner) (file : Text) : Process (Option Text) := do
  match ← readInput file with
  | .ok s => return some s
  | .error (.unopened e) =>
    complain m.name ("can't read " ++ file ++ ": " ++ e.description)
    return none
  | .error (.unread e) =>
    if m.inPlace.isSome then failWith 4 m.name ("couldn't edit " ++ file ++ ": not a regular file")
    else failWith 4 m.name ("read error on " ++ file ++ ": " ++ e.description)

/-- Runs the script on files by themselves; gives the status, given what it is so far. -/
def runApart (m : Manner) : List Text → State → Nat → Process Nat
  | [], _, status => return status
  | file :: rest, state, status => do
    match ← content? m file with
    | none => runApart m rest state 2
    | some s =>
      let lines := linesOfText m.settings.separator s
      let (printed, state, status?) ← runOn m.name m.settings m.script state file lines
      match m.inPlace with
      | none =>
        emit m.name printed
      | some ending =>
        if !ending.isEmpty then save m.name (copyName ending file) s false
        save m.name file printed false
      let state := if m.inPlace.isSome then { state with unended := false } else state
      match status? with
      | some status => return status
      | none => runApart m rest state status

/-- Runs the script on the lines of all files; gives the status. -/
def runTogether (m : Manner) (files : List Text) : Process Nat := do
  let contents ← files.mapM (content? m)
  let lines := contents.flatMap fun s? => linesOfText m.settings.separator (s?.getD [])
  let (printed, _, status?) ←
    runOn m.name m.settings m.script {} (files.headD ['-']) lines
  emit m.name printed
  return status?.getD (if contents.any Option.isNone then 2 else 0)

end Edit

/-- Edits its input. -/
def sed : Program := fun _ words => do
  let call ← readCall Edit.shape words
  let name := call.name
  let given := call.options.filter fun o => o.1 == 'e' || o.1 == 'f'
  let (given, operands) ← match given, call.operands with
    | [], [] =>
      Process.warn Edit.usage
      Process.exit 1
    | [], script :: files => pure ([('e', script)], files)
    | _, files => pure (given, files)
  let sources ← Edit.sourcesOf name 0 given
  let style : Regex.Style := { extended := call.has 'E' || call.has 'r' }
  let script ← Edit.compile name style sources 0
  match script.missingLabel? with
  | some label => failWith 4 name ("can't find label for jump to " ++ "`" ++ label ++ "'")
  | none => pure ()
  (Edit.filesWritten script).eraseDups.forM fun file => Edit.save name file [] false
  let files ← (Edit.filesRead script).mapM fun file => do
    match ← readInput file with
    | .ok s => return (file, s)
    | .error _ => return (file, [])
  let manner : Edit.Manner :=
    { name := name
      settings :=
        { quiet := call.has 'n' || (sources.head?.any fun s => Edit.isQuiet s.text)
          separator := if call.has 'z' then '\x00' else '\n'
          width := ((call.word? 'l').bind Number.natural?).getD 70
          files := files }
      script := script
      inPlace := call.word? 'i'
      separate := call.has 's' }
  if manner.inPlace.isSome ∧ operands.isEmpty then failWith 4 name "no input files"
  if manner.inPlace.isSome || manner.separate then
    Edit.runApart manner (filesOf operands) {} 0
  else Edit.runTogether manner (filesOf operands)

end NinjaPlan.Tool
