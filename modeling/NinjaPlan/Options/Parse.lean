import NinjaPlan.Options.Basic
import NinjaPlan.Text.Terminal

/-! # Reading a command line

Arguments are read from left to right.  A switch with a value takes it attached, as in
`--name=x`, `-nx` or `-n=x`, or from the next argument, unless that starts with a dash and the
switch does not take such values; a lone dash is a value like any other.  Letters without values
may share a dash.  After `--` no more switches are read, and as there are no other arguments any
further one is an error.

A separate value is only entered when the next switch is reached or the line ends.  Until then
its faults (an empty root, a repeated switch) stay unseen, so that an unknown argument right
after it is reported first. -/

namespace NinjaPlan.Options

/-- Why a command line asks for no run. -/
inductive UsageError where
  | unknownArgument (arg : Text)
  | missingValue (switch : Switch)
  | repeated (switch : Switch)
  | unexpectedValue (value : Text) (switch : Switch)
  | helpWanted
  | versionWanted
deriving DecidableEq

/-- The name and number of this program. -/
def programVersion : Text := "ninjaconf 0.1.0"

/-- What the user is told of a fault; what was typed is shown without control sequences. -/
def UsageError.description : UsageError → Option Text
  | unknownArgument arg => some ("unexpected argument '" ++ Text.shown arg ++ "' found")
  | missingValue switch =>
    some ("a value is required for '" ++ switch.usage ++ "' but none was supplied")
  | repeated switch =>
    some ("the argument '" ++ switch.usage ++ "' cannot be used multiple times")
  | unexpectedValue value switch =>
    some ("unexpected value '" ++ Text.shown value ++ "' for '" ++ switch.usage ++
      "' found; no more were expected")
  | helpWanted => none
  | versionWanted => some programVersion

/-- The first line of what the user is told. -/
def UsageError.message (e : UsageError) : Option Text := e.description.map Text.firstLine

/-- What the help says of a switch. -/
def Switch.helpLine (s : Switch) : Text :=
  let letter : Text := match s.short with
    | none => "    "
    | some c => ['-', c, ',', ' ']
  "  " ++ letter ++ s.usage ++ "\n"

/-- What the user is told who asks for help. -/
def helpText : Text :=
  "Usage: ninjaconf [OPTIONS]\n\nOptions:\n" ++ Switch.all.flatMap Switch.helpLine

/-- The settings read so far, and the switches that gave them. -/
structure Draft where
  options : Options := {}
  given : List Switch := []

/-- Enters the value of a switch in the settings; the first extension given replaces the
default. -/
def Draft.assign (d : Draft) (s : Switch) (value : Text) : Options :=
  let o := d.options
  match s with
  | .root => { o with root := some value }
  | .release => { o with release := true }
  | .compiler => { o with compiler := value }
  | .compileFlags => { o with compileFlags := some value }
  | .depFlags => { o with depFlags := value }
  | .linker => { o with linker := value }
  | .linkFlags => { o with linkFlags := some value }
  | .package => { o with packages := o.packages ++ [value] }
  | .sourceDir => { o with sourceDir := value }
  | .testDir => { o with testDir := value }
  | .name => { o with name := value }
  | .testName => { o with testName := value }
  | .entryPoint => { o with entryPoint := value }
  | .extension =>
    { o with extensions := if s ∈ d.given then o.extensions ++ [value] else [value] }
  | .objectDir => { o with objectDir := some value }
  | .stdout => { o with toStdout := true }
  | .verbose => { o with verbose := true }
  | .help | .version => o

/-- Enters a switch and its value, which is empty for a switch without one. -/
def Draft.enter (d : Draft) (s : Switch) (value : Text) : Except UsageError Draft :=
  if s = .help then .error .helpWanted
  else if s = .version then .error .versionWanted
  else if s ∈ d.given ∧ s.repeats = false then .error (.repeated s)
  else if s = .root ∧ value = [] then .error (.missingValue s)
  else .ok ⟨d.assign s value, s :: d.given⟩

/-- A switch whose value is not entered yet. -/
inductive Pending where
  | nothing
  /-- The value is the next argument. -/
  | awaiting (switch : Switch)
  /-- The value was the last argument. -/
  | holding (switch : Switch) (value : Text)
deriving DecidableEq

/-- How far a command line has been read. -/
structure Reader where
  draft : Draft := {}
  pending : Pending := .nothing
  /-- Whether `--` has been read. -/
  closed : Bool := false

namespace Reader

/-- Enters the switch that is pending. -/
def settle (r : Reader) : Except UsageError Draft :=
  match r.pending with
  | .nothing => .ok r.draft
  | .awaiting s => .error (.missingValue s)
  | .holding s value => r.draft.enter s value

/-- Enters a switch with an attached value, or without one, after what is pending. -/
def enter (r : Reader) (s : Switch) (value : Text) : Except UsageError Reader := do
  let draft ← r.settle
  let draft ← draft.enter s value
  return { r with draft := draft, pending := .nothing }

/-- Waits for the value of a switch. -/
def await (r : Reader) (s : Switch) : Except UsageError Reader := do
  let draft ← r.settle
  return { r with draft := draft, pending := .awaiting s }

/-- Reads a long switch, given its name and the value attached to it. -/
def readLong (r : Reader) (name : Text) (attached : Option Text) : Except UsageError Reader :=
  match Switch.ofLong? name, attached with
  | none, _ => .error (.unknownArgument ("--" ++ name))
  | some s, none => if s.takesValue then r.await s else r.enter s []
  | some s, some value =>
    if s.takesValue then r.enter s value else .error (.unexpectedValue value s)

/-- Reads the letters behind a dash; the first that takes a value takes the rest as its value. -/
def readLetters (r : Reader) : Text → Except UsageError Reader
  | [] => .ok r
  | c :: rest =>
    match Switch.ofShort? c with
    | none => .error (.unknownArgument ['-', c])
    | some s =>
      if s.takesValue then
        match rest with
        | [] => r.await s
        | d :: value => r.enter s (if d = '=' then value else d :: value)
      else do
        let r ← r.enter s []
        r.readLetters rest

/-- Reads an argument that is not the value of a switch that takes dashes. -/
def readPlain (r : Reader) (arg : Text) : Except UsageError Reader :=
  match arg with
  | ['-', '-'] => .ok { r with closed := true }
  | '-' :: '-' :: long =>
    match Text.pieces '=' long with
    | [] | [_] => r.readLong long none
    | name :: _ => r.readLong name (some (long.drop (name.length + 1)))
  | '-' :: c :: letters => r.readLetters (c :: letters)
  | _ =>
    match r.pending with
    | .awaiting s => .ok { r with pending := .holding s arg }
    | _ => .error (.unknownArgument arg)

def read (r : Reader) (arg : Text) : Except UsageError Reader :=
  if r.closed then .error (.unknownArgument arg)
  else
    match r.pending with
    | .awaiting s =>
      if s.takesDashes then .ok { r with pending := .holding s arg } else r.readPlain arg
    | _ => r.readPlain arg

/-- Reads arguments in order. -/
def readAll (r : Reader) : List Text → Except UsageError Reader
  | [] => .ok r
  | arg :: args => do
    let r ← r.read arg
    r.readAll args

end Reader

/-- The settings that a command line asks for, or the first fault found in it. -/
def parse (args : List Text) : Except UsageError Options := do
  let r ← Reader.readAll {} args
  let draft ← r.settle
  return draft.options

end NinjaPlan.Options
