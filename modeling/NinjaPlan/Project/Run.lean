import NinjaPlan.Project.Generate

/-! # A run

A run finds the project's root, generates the build file and either prints it or puts it in place
of the `build.ninja` in the root. -/

namespace NinjaPlan

def buildFileName : Path := "build.ninja"

/-- What standard output is connected to. -/
inductive Sink where
  /-- Something that takes all that is written. -/
  | open
  /-- A pipe that nobody reads. -/
  | closed
  /-- A device without space. -/
  | full
deriving DecidableEq

/-- The number of bytes that output is gathered to before it is written, unless a line ends. -/
def outputBuffer : Nat := 1024

/-- Prints a text.  A pipe that nobody reads is as good as a reader.  On a full device a line or
a text as large as the buffer fails when it is written, and less only at the end. -/
def Sink.print (s : Sink) (text : Text) : Except RunError Text :=
  match s with
  | .open => .ok text
  | .closed => .ok []
  | .full =>
    if text = [] then .ok []
    else if '\n' ∈ text ∨ outputBuffer ≤ (Utf8.encode text).length then
      .error (.print .write (.os .noSpace))
    else .error (.print .flush (.os .noSpace))

/-- The canonical path of a location.  The system tells none that it could not take itself. -/
def Location.canonicalPath (loc : Location) : Except IoError Bytes :=
  if pathLimit ≤ (Location.path loc).length then .error (.os .nameTooLong)
  else .ok (Location.path loc)

/-- The canonical path of the root that is asked for. -/
def Options.locateRoot (o : Options) (t : FileTree) (here : Location) : Except RootError Path :=
  let requested : Path := ⟨o.root.getD "."⟩
  match t.directoryAt here requested.bytes with
  | none => .error (.notDirectory requested)
  | some loc =>
    match Location.canonicalPath loc with
    | .error e => .error (.notCanonical requested e)
    | .ok path =>
      match Utf8.decode path with
      | none => .error (.notUtf8 path)
      | some text => .ok ⟨text⟩

/-- What a run leaves behind. -/
structure Outcome where
  tree : FileTree
  printed : Text
  events : List Event
  result : Except RunError Unit

/-- Replaces a file by one with the given text.  A fault makes a step of this fail. -/
def writeBuildFile (t : FileTree) (here : Location) (path : Path) (text : Text)
    (fault : Option FileTree.Fault := none) : FileTree × Logged FileTree.ReplaceError Unit :=
  let r := t.replace here path (Utf8.encode text) fault
  match r.error with
  | some e => (r.final, ⟨[], .error e⟩)
  | none => (r.final, ⟨[.fileWritten path], .ok ()⟩)

/-- A run with the given settings.  A fault makes a step of writing the build file fail. -/
def Options.run (o : Options) (source : PackageSource) (t : FileTree) (here : Location)
    (sink : Sink := .open) (fault : Option FileTree.Fault := none) : Outcome :=
  match o.locateRoot t here with
  | .error e => ⟨t, [], [], .error (.root e)⟩
  | .ok root =>
    let (generated, t) := (Layout.ofOptions o root).generate o source t here
    match generated.result with
    | .error e => ⟨t, [], generated.events, .error e⟩
    | .ok text =>
      if o.toStdout then
        match sink.print text with
        | .error e => ⟨t, [], generated.events, .error e⟩
        | .ok printed => ⟨t, printed, generated.events, .ok ()⟩
      else
        let path := root.join buildFileName
        let (after, written) := writeBuildFile t here path text fault
        ⟨after, [], generated.events ++ written.events, written.result.mapError (.write path)⟩

end NinjaPlan
