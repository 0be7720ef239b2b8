import NinjaPlan.Posix.Script.Expand

/-! # Redirections

A redirection connects a descriptor to a file, to what another descriptor is connected to, or to a
document of the script.  What the descriptors were connected to before is remembered, so that it
can be put back. -/

namespace NinjaPlan.Script

/-- What a redirection connects a descriptor to, with its words expanded. -/
inductive Connection where
  | file (mode : OpenMode) (path : Text)
  | descriptor (number : Nat)
  | nothing
  | text (octets : Text)

/-- What descriptors were connected to, the last change first. -/
abbrev Connections := List (Nat × Option Nat)

namespace Act

/-- Reports a word that names no descriptor, as a fault where the script has been read up to. -/
def badDescriptor {α : Type} : Act α := do
  modify fun s => { s with line := s.readLine }
  fail "Syntax error: Bad fd number"

/-- What a redirection asks for. -/
def connection (capture : Capture) (r : Redirect) : Act (Nat × Connection) := do
  let ⟨descriptor, target⟩ := r
  match target with
  | .file mode name => return (descriptor, .file mode (← textOf capture { tilde := true } name))
  | .descriptor word =>
    match (← fieldsOf capture word).head? with
    | some ['-'] => return (descriptor, .nothing)
    | some [c] =>
      match Number.natural? [c] with
      | some n => return (descriptor, .descriptor n)
      | none => badDescriptor
    | _ => badDescriptor
  | .document number =>
    let word := ((← get).documents.lookup number).getD []
    return (descriptor, .text (← textOf capture { quoted := true } word))

/-- What redirections ask for, in order. -/
def connectionsOf (capture : Capture) : List Redirect → Act (List (Nat × Connection))
  | [] => return []
  | r :: rest => do
    let first ← connection capture r
    return first :: (← connectionsOf capture rest)

/-- How a file is opened; `none` if it must not be there and is. -/
def openRequest (mode : OpenMode) (path : Text) : Act (Option Process.OpenRequest) := do
  match mode with
  | .read => return some { access := { reads := true } }
  | .readWrite => return some { access := { reads := true, writes := true }, creates := true }
  | .append =>
    return some { access := { writes := true, appends := true }, creates := true }
  | .overwrite => return some { access := { writes := true }, creates := true, truncates := true }
  | .write =>
    if ← isOn 'C' then
      let t ← os Process.tree
      let here ← os Process.directory
      match t.entryAt here (Octets.toBytes path) with
      | .ok (.file ..) => return none
      | .ok _ => return some { access := { writes := true } }
      | .error _ => return some { access := { writes := true }, creates := true }
    else return some { access := { writes := true }, creates := true, truncates := true }

/-- Reports a file that cannot be opened. -/
def cannotOpen {α : Type} (mode : OpenMode) (path : Text) (e : OsError) : Act α :=
  let isMissing := e = .notFound ∨ e = .notDirectory
  let (action, missing) : Text × Text :=
    if mode = .read then ("cannot open ", "No such file")
    else ("cannot create ", "Directory nonexistent")
  fail (action ++ path ++ ": " ++ (if isMissing then missing else e.description))

/-- The number in the table of what a connection leads to; `none` to disconnect. -/
def fileOf (c : Connection) : Act (Option Nat) := do
  match c with
  | .file mode path =>
    match ← openRequest mode path with
    | none => cannotOpen mode path .alreadyExists
    | some request =>
      match ← os (Process.openPath path request) with
      | .ok n => return some n
      | .error e => cannotOpen mode path e
  | .descriptor n =>
    match ← os (Process.connected? n) with
    | some file => return some file
    | none => fail (Text.ofNat n ++ ": " ++ OsError.badDescriptor.description)
  | .nothing => return none
  | .text octets => return some (← os (Process.opened (.source octets)))

/-- Puts back what descriptors were connected to. -/
def reconnect : Connections → Process Unit
  | [] => return
  | (descriptor, before) :: rest => do
    match before with
    | some file => Process.connect descriptor file
    | none => Process.disconnect descriptor
    reconnect rest

/-- Whether a connection changes nothing: that of a descriptor to itself. -/
def isIdle (descriptor : Nat) : Connection → Bool
  | .descriptor n => n == descriptor
  | _ => false

/-- Connects descriptors; tells what they were connected to before, and whether it was possible.
Where that can be put back, a descriptor is already free when it is connected to another one: a
message of standard error about its own connection is lost. -/
def connectAll (stay : Bool) : List (Nat × Connection) → Connections → Act (Connections × Bool)
  | [], before => return (before, true)
  | (descriptor, c) :: rest, before => do
    if isIdle descriptor c then connectAll stay rest before
    else
      let old ← os (Process.connected? descriptor)
      match c with
      | .descriptor _ => if !stay then os (Process.disconnect descriptor)
      | _ => pure ()
      let before := (descriptor, old) :: before
      match ← attempt (fileOf c) with
      | .error .failed => return (before, false)
      | .error e => throw e
      | .ok file =>
        match file with
        | some n => os (Process.connect descriptor n)
        | none => os (Process.disconnect descriptor)
        connectAll stay rest before

end Act
end NinjaPlan.Script
