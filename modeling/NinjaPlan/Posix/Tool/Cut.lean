import NinjaPlan.Posix.Tool.Basic

/-! # Cutting lines

The tool `cut` prints parts of lines: octets, or fields between separators, whose numbers are told
by a list of ranges. -/

namespace NinjaPlan.Tool
namespace Cut

/-- Numbers in a row from one on; without a last one, all from the first. -/
structure Range where
  first : Nat
  last : Option Nat

def Range.holds (r : Range) (n : Nat) : Bool :=
  r.first ≤ n && match r.last with
    | none => true
    | some last => n ≤ last

/-- How messages call what is numbered. -/
structure Wording where
  numbered : Text
  value : Text
  range : Text

/-- How messages call fields. -/
def fieldWording : Wording :=
  ⟨"fields are numbered from 1", "invalid field value ", "invalid field range"⟩

/-- How messages call octets. -/
def octetWording : Wording :=
  ⟨"byte/character positions are numbered from 1", "invalid byte/character position ",
    "invalid byte or character range"⟩

/-- A range that has been read in part. -/
structure Draft where
  first : Option Nat := none
  dashed : Bool := false
  last : Option Nat := none

/-- The range that has been read, or what is wrong with it. -/
def Draft.finish (w : Wording) (d : Draft) : Except Text Range :=
  match d.dashed, d.first, d.last with
  | false, none, _ | false, some 0, _ => .error w.numbered
  | false, some n, _ => .ok ⟨n, some n⟩
  | true, none, none => .error "invalid range with no endpoint: -"
  | true, some n, none => .ok ⟨n, none⟩
  | true, first, some last =>
    let first := first.getD 1
    if last < first then .error "invalid decreasing range" else .ok ⟨first, some last⟩

def Draft.addDigit (d : Draft) (c : Char) : Draft :=
  let add (n? : Option Nat) : Option Nat := some (n?.getD 0 * 10 + Number.digitValue c)
  if d.dashed then { d with last := add d.last } else { d with first := add d.first }

/-- The ranges of a list whose first range is read in part, or what is wrong with it. -/
def rangesFrom (w : Wording) : Draft → Text → Except Text (List Range)
  | d, [] => return [← d.finish w]
  | d, c :: rest => do
    if c = ',' ∨ c = ' ' ∨ c = '\t' then
      let range ← d.finish w
      return range :: (← rangesFrom w {} rest)
    else if c.isDigit then rangesFrom w (d.addDigit c) rest
    else if c ≠ '-' then .error (w.value ++ quoted (c :: rest))
    else if d.dashed then .error w.range
    else if d.first = some 0 then .error w.numbered
    else rangesFrom w { d with dashed := true } rest

def ranges (w : Wording) (s : Text) : Except Text (List Range) := rangesFrom w {} s

/-- The items of a list whose numbers are chosen. -/
def choose {α : Type} (holds : Nat → Bool) (items : List α) : List α :=
  ((items.zip (List.range items.length)).filter fun i => holds (i.2 + 1)).map Prod.fst

/-- The chosen octets of a line, with something between those that are apart if wanted. -/
def octetsOf (holds : Nat → Bool) (between : Option Text) (line : Text) : Text :=
  match between with
  | none => choose holds line
  | some glue =>
    let marked := line.zip (List.range line.length)
    let runs := (marked.splitBy fun a b => holds (a.2 + 1) == holds (b.2 + 1)).filter fun run =>
      run.any fun i => holds (i.2 + 1)
    glue.intercalate (runs.map fun run => run.map Prod.fst)

/-- The chosen fields of a line.  A line without separators is printed whole, or not at all. -/
def fieldsOf (holds : Nat → Bool) (separator : Char) (glue : Text) (whole : Bool) (line : Text) :
    Option Text :=
  if line.contains separator then
    some (glue.intercalate (choose holds (Text.pieces separator line)))
  else if whole then some line
  else none

end Cut

/-- Prints parts of lines. -/
def cut : Program := fun _ words => do
  let shape : Shape :=
    { letters := "b:c:d:f:nszC:o"
      names := [("bytes", 'b'), ("characters", 'c'), ("delimiter", 'd'), ("fields", 'f'),
        ("only-delimited", 's'), ("complement", 'o'), ("output-delimiter", 'C')] }
  let call ← readCall shape words
  let name := call.name
  let wrong {α : Type} (message : Text) : Process α := misuse name message
  let lists := call.options.filter fun o => o.1 == 'b' || o.1 == 'c' || o.1 == 'f'
  let (letter, list) ← match lists with
    | [] => wrong "you must specify a list of bytes, characters, or fields"
    | [found] => pure found
    | _ => wrong "only one list may be specified"
  let byFields := letter == 'f'
  match call.word? 'd' with
  | some (_ :: _ :: _) => wrong "the delimiter must be a single character"
  | some _ =>
    if !byFields then wrong "an input delimiter may be specified only when operating on fields"
  | none => pure ()
  if call.has 's' ∧ !byFields then
    wrong "suppressing non-delimited lines makes sense\n\tonly when operating on fields"
  let wording := if byFields then Cut.fieldWording else Cut.octetWording
  let ranges ← match Cut.ranges wording list with
    | .ok ranges => pure ranges
    | .error message => wrong message
  let holds (n : Nat) : Bool := (ranges.any fun r => r.holds n) != call.has 'o'
  let separator := match call.word? 'd' with
    | some [c] => c
    | some _ => '\x00'
    | none => '\t'
  let glue := (call.word? 'C').getD [separator]
  let part (line : Text) : Option Text :=
    if byFields then Cut.fieldsOf holds separator glue (!call.has 's') line
    else some (Cut.octetsOf holds (call.word? 'C') line)
  let all ← forInputs name pathComplaint
    (fun _ content => emit name (unlines ((linesOf content).filterMap part)))
    (filesOf call.operands)
  return statusOf all

end NinjaPlan.Tool
