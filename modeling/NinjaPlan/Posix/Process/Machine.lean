import NinjaPlan.Files.Change
import NinjaPlan.Flags.Program
import NinjaPlan.Posix.Process.Signal
import NinjaPlan.Posix.Text.Octets

/-! # Running processes

What processes share (the files, what is open, the signals on their way) and what each has for
itself (its descriptors, its directory, its environment).  Processes run one after another: one
that starts another goes on when that has ended.  A pipe is therefore filled before it is read,
and holds a fixed number of octets, beyond which its writer dies as if the reader had gone.

A step of a process is a function of `Process`: it changes the machine, and may end the
process. -/

namespace NinjaPlan

/-- What may be done with an open file. -/
structure Access where
  reads : Bool := false
  writes : Bool := false
  /-- Whatever is written goes to the end. -/
  appends : Bool := false

inductive OpenFile where
  /-- Octets to be read, as from a pipe. -/
  | source (rest : Text)
  /-- Octets written, the last first, and the room for more if it is bounded. -/
  | sink (written : List Text) (room : Option Nat)
  | file (loc : Location) (offset : Nat) (access : Access)
  | directory
  | device (kind : Device)

/-- What processes share. -/
structure World where
  tree : FileTree
  /-- What is open, by number. -/
  files : List (Nat × OpenFile) := []
  nextFile : Nat := 0
  /-- The number of the next process. -/
  nextProcess : Nat := 1
  /-- Signals on their way, with the processes they are sent to. -/
  sent : List (Nat × Nat) := []

/-- What a process has for itself. -/
structure ProcessState where
  number : Nat := 0
  /-- The processes that wait for it, the nearest first. -/
  parents : List Nat := []
  /-- What each descriptor is connected to, by the number of the open file. -/
  descriptors : List (Nat × Nat) := []
  directory : Location := []
  environment : List (Text × Text) := []
  ignored : List Nat := []

/-- A machine with one process running. -/
structure Machine where
  world : World
  process : ProcessState

/-- A step of a process. -/
abbrev Process := ExceptT Ending (StateM Machine)

namespace Process

/-- The files of the machine. -/
def tree : Process FileTree := return (← get).world.tree

def changeWorld (f : World → World) : Process Unit := modify fun m => { m with world := f m.world }

def changeSelf (f : ProcessState → ProcessState) : Process Unit :=
  modify fun m => { m with process := f m.process }

/-- Puts a tree in place of the machine's. -/
def setTree (t : FileTree) : Process Unit := changeWorld fun w => { w with tree := t }

def directory : Process Location := return (← get).process.directory

def environmentValue? (name : Text) : Process (Option Text) :=
  return (← get).process.environment.lookup name

def exit {α : Type} (code : Nat) : Process α := throw (.status code)

/-- Changes the files unless the change fails. -/
def change (f : FileTree → Location → Except IoError FileTree) : Process (Option OsError) := do
  match f (← tree) (← directory) with
  | .ok t =>
    setTree t
    return none
  | .error (.os e) => return some e
  | .error _ => return some .notFound

/-! ### What is open -/

/-- Puts something into the table of what is open; gives its number. -/
def opened (f : OpenFile) : Process Nat := do
  let m ← get
  let n := m.world.nextFile
  set { m with world := { m.world with files := (n, f) :: m.world.files, nextFile := n + 1 } }
  return n

/-- What has a number in the table. -/
def openFile? (n : Nat) : Process (Option OpenFile) := return (← get).world.files.lookup n

/-- The table with another entry for a number. -/
def replaceEntry (n : Nat) (f : OpenFile) : List (Nat × OpenFile) → List (Nat × OpenFile)
  | [] => []
  | (k, g) :: rest => if k = n then (k, f) :: rest else (k, g) :: replaceEntry n f rest

/-- Changes what has a number in the table. -/
def setOpenFile (n : Nat) (f : OpenFile) : Process Unit :=
  changeWorld fun w => { w with files := replaceEntry n f w.files }

def connected? (descriptor : Nat) : Process (Option Nat) :=
  return (← get).process.descriptors.lookup descriptor

def connect (descriptor file : Nat) : Process Unit := changeSelf fun p =>
  { p with descriptors := (descriptor, file) :: p.descriptors.filter (·.1 != descriptor) }

def disconnect (descriptor : Nat) : Process Unit := changeSelf fun p =>
  { p with descriptors := p.descriptors.filter (·.1 != descriptor) }

/-- How a file is opened. -/
structure OpenRequest where
  access : Access
  creates : Bool := false
  truncates : Bool := false
  /-- Fails if the file exists. -/
  exclusive : Bool := false

def openDevice (kind : Device) : Process (Except OsError Nat) := do
  match kind with
  | .descriptor n =>
    match ← connected? n with
    | some file => return .ok file
    | none => return .error .notFound
  | .closed => return .error .noAddress
  | _ => return .ok (← opened (.device kind))

def openEntry (loc : Location) (request : OpenRequest) : Process (Except OsError Nat) := do
  match (← tree).get? loc with
  | none => return .error .notFound
  | some .directory =>
    if request.access.writes || request.creates then return .error .isDirectory
    else return .ok (← opened .directory)
  | some (.device kind) => openDevice kind
  | some (.link _) => return .error .tooManyLinks
  | some (.file _ permissions) =>
    if request.exclusive then return .error .alreadyExists
    if request.truncates then setTree ((← tree).put loc (.file [] permissions))
    return .ok (← opened (.file loc 0 request.access))

/-- Opens the file at a path; gives its number in the table. -/
def openPath (path : Text) (request : OpenRequest) : Process (Except OsError Nat) := do
  let t ← tree
  let here ← directory
  let bytes := Octets.toBytes path
  if request.creates then
    match t.locatePlace here bytes with
    | .error e => return .error e
    | .ok (.existing loc) => openEntry loc request
    | .ok (.vacant dir name) =>
      setTree (t.put (name :: dir) (.file [] FileTree.defaultPermissions))
      return .ok (← opened (.file (name :: dir) 0 request.access))
  else
    match t.locate here bytes with
    | .error e => return .error e
    | .ok (.missing ..) => return .error .notFound
    | .ok (.found loc) => openEntry loc request

/-! ### Reading and writing -/

/-- The number of octets that are read at most of something without end. -/
def endless : Nat := 0x100000

/-- Reads at most `limit` octets of something open, or all there are. -/
def readFile (n : Nat) (limit : Option Nat) : Process (Except OsError Text) := do
  match ← openFile? n with
  | none | some (.sink ..) => return .error .badDescriptor
  | some .directory => return .error .isDirectory
  | some (.source rest) =>
    match limit with
    | none =>
      setOpenFile n (.source [])
      return .ok rest
    | some k =>
      setOpenFile n (.source (rest.drop k))
      return .ok (rest.take k)
  | some (.device .zero) | some (.device .full) =>
    return .ok (List.replicate (limit.getD endless) '\x00')
  | some (.device _) => return .ok []
  | some (.file loc offset access) =>
    if !access.reads then return .error .badDescriptor
    match (← tree).get? loc with
    | some (.file content _) =>
      let rest := content.drop offset
      let read := match limit with
        | none => rest
        | some k => rest.take k
      setOpenFile n (.file loc (offset + read.length) access)
      return .ok (Octets.ofBytes read)
    | _ => return .ok []

/-- Reads at most `limit` octets from a descriptor, or all there are. -/
def read (descriptor : Nat) (limit : Option Nat := none) : Process (Except OsError Text) := do
  match ← connected? descriptor with
  | none => return .error .badDescriptor
  | some n => readFile n limit

/-- Reads a line from something open, with the break that ends it if it has one. -/
def readLineOf (n : Nat) : Process (Except OsError Text) := do
  let lineOf (rest : Text) : Nat :=
    let line := rest.takeWhile (· != '\n')
    if line.length < rest.length then line.length + 1 else line.length
  match ← openFile? n with
  | some (.source rest) => readFile n (some (lineOf rest))
  | some (.file loc offset _) =>
    match (← tree).get? loc with
    | some (.file content _) =>
      readFile n (some (lineOf (Octets.ofBytes (content.drop offset))))
    | _ => return .ok []
  | _ => readFile n (some 0)

/-- Reads a line from a descriptor, with the break that ends it if it has one. -/
def readLine (descriptor : Nat) : Process (Except OsError Text) := do
  match ← connected? descriptor with
  | none => return .error .badDescriptor
  | some n => readLineOf n

/-- Takes a signal that the process has brought upon itself; one that it ignores has no effect. -/
def takeSignal (signal : Nat) : Process Unit := do
  if (← get).process.ignored.contains signal then return
  else throw (.signal signal)

/-- The content of a file with octets written over it from an offset on. -/
def overwrite (content : Bytes) (offset : Nat) (written : Bytes) : Bytes :=
  let before := content.take offset
  before ++ List.replicate (offset - before.length) 0 ++ written ++
    content.drop (offset + written.length)

/-- Writes octets to something open. -/
def writeFile (n : Nat) (octets : Text) : Process (Option OsError) := do
  if octets.isEmpty then return none
  match ← openFile? n with
  | none | some (.source _) | some .directory => return some .badDescriptor
  | some (.device .full) => return some .noSpace
  | some (.device _) => return none
  | some (.sink written none) =>
    setOpenFile n (.sink (octets :: written) none)
    return none
  | some (.sink written (some room)) =>
    setOpenFile n (.sink (octets.take room :: written) (some (room - octets.length)))
    if octets.length ≤ room then return none
    takeSignal Signal.pipe
    return some .brokenPipe
  | some (.file loc offset access) =>
    if !access.writes then return some .badDescriptor
    match (← tree).get? loc with
    | some (.file content permissions) =>
      let bytes := Octets.toBytes octets
      let offset := if access.appends then content.length else offset
      setTree ((← tree).put loc (.file (overwrite content offset bytes) permissions))
      setOpenFile n (.file loc (offset + bytes.length) access)
      return none
    | _ => return none

def write (descriptor : Nat) (octets : Text) : Process (Option OsError) := do
  match ← connected? descriptor with
  | none => return some .badDescriptor
  | some n => writeFile n octets

/-- Writes a message to the third descriptor, whatever becomes of it. -/
def warn (message : Text) : Process Unit := do
  let _ ← write 2 (message ++ "\n")

/-- The octets that have been written to a sink. -/
def contents (n : Nat) : Process Text := do
  match ← openFile? n with
  | some (.sink written _) => return written.reverse.flatten
  | _ => return []

/-! ### Children -/

/-- The machine in which a child of its process starts. -/
def forked (m : Machine) : Machine where
  world := { m.world with nextProcess := m.world.nextProcess + 1 }
  process := { m.process with
    number := m.world.nextProcess, parents := m.process.number :: m.process.parents }

/-- Runs a child; gives its number and how it ends. -/
def fork (body : Process Unit) : Process (Nat × Ending) := fun m =>
  let (result, after) := body.run (forked m)
  let ending := match result with
    | .ok () => Ending.status 0
    | .error e => e
  (.ok (m.world.nextProcess, ending), { m with world := after.world })

/-- The signals that were sent to the process while others ran. -/
def collectSignals : Process (List Nat) := do
  let m ← get
  let mine := m.world.sent.filter (·.1 == m.process.number)
  if mine.isEmpty then return []
  changeWorld fun w => { w with sent := w.sent.filter (·.1 != m.process.number) }
  return mine.reverse.map (·.2)

/-- Takes the signals that were sent to the process while others ran. -/
def takeSignals : Process Unit := do
  (← collectSignals).forM fun signal =>
    if Signal.isHarmless signal then pure () else takeSignal signal

end Process
end NinjaPlan
