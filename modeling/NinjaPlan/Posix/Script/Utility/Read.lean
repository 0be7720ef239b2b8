import NinjaPlan.Posix.Script.Utility.Variables

/-! # Reading a line

The utility `read` reads a line from standard input and cuts it into as many fields as there are
variables; the last of them takes all that is left. -/

namespace NinjaPlan.Script.Utility

/-- How far a line has been cut. -/
structure LineCutting where
  /-- The complete fields, last first. -/
  done : List Text := []
  /-- The field that has begun, last octet first. -/
  current : Text := []
  /-- The last octet was a blank that separates. -/
  afterBlank : Bool := false
  /-- How many fields may still be told apart, but for the last. -/
  left : Nat
  /-- How much of the last field is kept, if not all. -/
  kept : Option Nat := none

namespace LineCutting

/-- Goes on with an octet in the last field, of which separators at the end are not kept. -/
def stepLast (s : LineCutting) (c : Char) (separates isBlank : Bool) : LineCutting :=
  let s := { s with current := c :: s.current }
  if separates && isBlank then { s with kept := some (s.kept.getD (s.current.length - 1)) }
  else if separates && s.afterBlank then { s with afterBlank := false }
  else { s with kept := none, afterBlank := false }

/-- Goes on with an octet behind a blank that separates. -/
def stepBlank (s : LineCutting) (c : Char) (separates isBlank : Bool) : LineCutting :=
  { s with
    current := if separates then [] else [c]
    afterBlank := separates && isBlank }

/-- Goes on with an octet that separates. -/
def stepSeparator (s : LineCutting) (c : Char) (isBlank : Bool) : LineCutting :=
  if s.current.isEmpty && isBlank then { s with afterBlank := false }
  else if s.left ≤ 1 then
    { s with
      left := 0, afterBlank := isBlank
      kept := some s.current.length, current := c :: s.current }
  else
    { s with
      left := s.left - 1, afterBlank := isBlank
      done := s.current.reverse :: s.done, current := [] }

/-- Goes on with an octet, which may be protected. -/
def step (separators : Text) (s : LineCutting) (octet : Char × Bool) : LineCutting :=
  let (c, isProtected) := octet
  if isProtected then { s with current := c :: s.current, afterBlank := false }
  else
    let separates := separators.contains c
    let isBlank := c == ' ' || c == '\t' || c == '\n'
    if s.left = 0 then s.stepLast c separates isBlank
    else if s.afterBlank then s.stepBlank c separates isBlank
    else if separates then s.stepSeparator c isBlank
    else { s with current := c :: s.current }

def finish (s : LineCutting) : List Text :=
  let last := match s.kept with
    | none => s.current.reverse
    | some n => s.current.reverse.take n
  (if last.isEmpty then s.done else last :: s.done).reverse

end LineCutting

def lineFields (separators : Text) (count : Nat) (line : List (Char × Bool)) : List Text :=
  (line.foldl (LineCutting.step separators) { left := count }).finish

/-- The octets of a text up to its line break, with their protection; tells how the text ends. -/
def protectedOctets (raw : Bool) : Text → List (Char × Bool) → List (Char × Bool) × Option Bool
  | [], found => (found, none)
  | '\n' :: _, found => (found, some false)
  | '\x00' :: rest, found => protectedOctets raw rest found
  | '\\' :: c :: rest, found =>
    if raw then protectedOctets raw (c :: rest) (('\\', false) :: found)
    else if c = '\n' then (found, some true)
    else protectedOctets raw rest ((c, true) :: found)
  | c :: rest, found =>
    protectedOctets raw rest (if c = '\\' && !raw then found else (c, false) :: found)

/-- Reads a line, which goes on behind a break that is protected.  Tells whether the input ended
before the line did. -/
def readLogicalLine (raw : Bool) : Nat → List (Char × Bool) →
    Process (List (Char × Bool) × Bool)
  | 0, found => return (found.reverse, true)
  | fuel + 1, found => do
    match ← Process.readLine 0 with
    | .error _ => return (found.reverse, true)
    | .ok line =>
      match protectedOctets raw line found with
      | (found, none) => return (found.reverse, true)
      | (found, some false) => return (found.reverse, false)
      | (found, some true) => readLogicalLine raw fuel found

/-- The number of lines that are joined at most. -/
def joinLimit : Nat := 1000000

/-- Gives variables the fields of a line; those for which there is none are empty. -/
def assignFields : List Text → List Text → Act Unit
  | [], _ => return
  | name :: names, [] => do
    define name []
    assignFields names []
  | name :: names, field :: fields => do
    define name field
    assignFields names fields

/-- Reads a line into variables. -/
def read : Utility := fun arguments => do
  let o ← Options.read "p:r" arguments
  if o.rest.isEmpty then
    let _ ← Act.fail (α := Unit) "arg count"
  let (line, atEnd) ← Act.os (readLogicalLine (o.has 'r') joinLimit [])
  assignFields o.rest (lineFields (← Act.separators) o.rest.length line)
  return if atEnd then 1 else 0

end NinjaPlan.Script.Utility
