import NinjaPlan.Posix.Tool.Basic

/-! # Comparing files

The tools `cmp` and `comm` compare two files, by their octets and by their sorted lines. -/

namespace NinjaPlan.Tool
namespace Compare

/-- Where two texts differ. -/
inductive Difference where
  | none
  /-- The number of the octet and of its line. -/
  | at (octet line : Nat)
  /-- One text ends, the first one or not, behind so many octets and breaks of lines. -/
  | ends (isFirst : Bool) (octets breaks : Nat) (atBreak : Bool)

/-- Where two texts first differ, behind so many octets and breaks of lines. -/
def difference : Nat → Nat → Bool → Text → Text → Difference
  | _, _, _, [], [] => .none
  | octets, breaks, atBreak, [], _ :: _ => .ends true octets breaks atBreak
  | octets, breaks, atBreak, _ :: _, [] => .ends false octets breaks atBreak
  | octets, breaks, _, a :: s, b :: t =>
    if a = b then
      difference (octets + 1) (breaks + if a = '\n' then 1 else 0) (a == '\n') s t
    else .at (octets + 1) (breaks + 1)

/-- The octets in which two texts differ, with their numbers. -/
def differences : Nat → Text → Text → List (Nat × Char × Char)
  | n, a :: s, b :: t =>
    if a = b then differences (n + 1) s t else (n, a, b) :: differences (n + 1) s t
  | _, _, _ => []

def octal (c : Char) : Text :=
  let digits := Number.inBase 8 c.toNat
  List.replicate (3 - digits.length) ' ' ++ digits

/-- The lines of two sorted texts in one row, each with the column it belongs to: one for the
first text, one for the second, one for both.  The number bounds how many lines there are. -/
def merged : Nat → List Text → List Text → List (Nat × Text)
  | 0, _, _ => []
  | _, [], t => t.map fun line => (2, line)
  | _, s, [] => s.map fun line => (1, line)
  | fuel + 1, a :: s, b :: t =>
    if a = b then (3, a) :: merged fuel s t
    else if before a b then (1, a) :: merged fuel s (b :: t)
    else (2, b) :: merged fuel (a :: s) t

def readOne (call : Call) (complaint : Text → InputFault → Text) (status : Nat) (file : Text) :
    Process Text := do
  match ← readInput file with
  | .ok s => return s
  | .error fault => failWith status call.name (complaint file fault)

end Compare

/-- Compares files octet by octet. -/
def cmp : Program := fun _ words => do
  let shape : Shape :=
    { letters := "slbn:i:", names := [("silent", 's'), ("quiet", 's'), ("verbose", 'l')]
      status := 2
      usage := some "cmp: Try 'cmp --help' for more information." }
  let call ← readCall shape words
  let (first, second) ← match call.operands with
    | [] => shape.misuse call.name ("missing operand after " ++ bareQuoted call.name)
    | [file] => pure (file, ['-'])
    | [a, b] => pure (a, b)
    | _ :: _ :: extra :: _ => shape.misuse call.name ("extra operand " ++ bareQuoted extra)
  let s ← Compare.readOne call plainComplaint 2 first
  let t ← Compare.readOne call plainComplaint 2 second
  let silent := call.has 's'
  let limit? := (call.word? 'n').bind Number.natural?
  let cutOff (s : Text) : Text := (limit?.map fun n => s.take n).getD s
  let (s, t) := (cutOff s, cutOff t)
  match Compare.difference 0 0 true s t with
  | .none => return 0
  | .at octet line =>
    if call.has 'l' then
      let found := Compare.differences 1 s t
      emit call.name (found.flatMap fun (n, a, b) =>
        Text.ofNat n ++ ' ' :: Compare.octal a ++ ' ' :: Compare.octal b ++ ['\n'])
    else if !silent then
      emit call.name (first ++ ' ' :: second ++ " differ: char " ++ Text.ofNat octet ++
        ", line " ++ Text.ofNat line ++ ['\n'])
    return 1
  | .ends isFirst octets breaks atBreak =>
    let file := if isFirst then first else second
    if silent then return 1
    if octets = 0 then complain call.name ("EOF on " ++ file ++ " which is empty")
    else
      let place : Text := if atBreak then ", line " ++ Text.ofNat breaks
        else ", in line " ++ Text.ofNat (breaks + 1)
      complain call.name ("EOF on " ++ file ++ " after byte " ++ Text.ofNat octets ++ place)
    return 1

/-- Compares sorted files line by line. -/
def comm : Program := fun _ words => do
  let call ← readCall { letters := "123z", names := [("zero-terminated", 'z')] } words
  let (first, second) ← match call.operands with
    | [] => misuse call.name "missing operand"
    | [file] => misuse call.name ("missing operand after " ++ quoted file)
    | [a, b] => pure (a, b)
    | _ :: _ :: extra :: _ => misuse call.name ("extra operand " ++ quoted extra)
  let s := linesOf (← Compare.readOne call pathComplaint 1 first)
  let t := linesOf (← Compare.readOne call pathComplaint 1 second)
  let isHidden (column : Nat) : Bool := call.has (Char.ofNat ('0'.toNat + column))
  let tabs (column : Nat) : Text :=
    ((List.range column).filter fun k => 0 < k && !isHidden k).map fun _ => '\t'
  let shown := (Compare.merged (s.length + t.length + 1) s t).filter fun l => !isHidden l.1
  emit call.name (shown.flatMap fun (column, line) => tabs column ++ line ++ ['\n'])
  return 0

end NinjaPlan.Tool
