import NinjaPlan.Posix.Text.Real
import NinjaPlan.Posix.Tool.Basic

/-! # Sorting lines

The tools `sort` and `uniq`.  Lines are compared by keys, each a part of the line and a manner of
comparing; lines whose keys agree are compared as a whole. -/

namespace NinjaPlan.Tool
namespace Sorting

/-- How keys are compared. -/
structure Manner where
  numeric : Bool := false
  human : Bool := false
  versions : Bool := false
  folds : Bool := false
  /-- Only blanks, letters and digits count. -/
  dictionary : Bool := false
  /-- Blanks at the start do not count. -/
  skipsBlanks : Bool := false
  reversed : Bool := false

/-- Whether a manner is none in particular. -/
def Manner.isPlain (m : Manner) : Bool :=
  !(m.numeric || m.human || m.versions || m.folds || m.dictionary || m.skipsBlanks || m.reversed)

def Manner.with? (m : Manner) (letter : Char) : Option Manner :=
  match letter with
  | 'n' | 'g' => some { m with numeric := true }
  | 'h' => some { m with human := true }
  | 'V' => some { m with versions := true }
  | 'f' => some { m with folds := true }
  | 'd' => some { m with dictionary := true }
  | 'b' => some { m with skipsBlanks := true }
  | 'r' => some { m with reversed := true }
  | 'i' => some m
  | _ => none

/-- A key: the field and the octet where it starts, those where it ends, and its manner. -/
structure Key where
  startField : Nat
  startOctet : Nat := 1
  endField : Option Nat := none
  /-- Zero for all of the field. -/
  endOctet : Nat := 0
  manner : Manner := {}

def mannerOf? (m : Manner) (letters : Text) : Option Manner :=
  letters.foldl (fun found c => found.bind fun m => Manner.with? m c) (some m)

/-- A field with an octet of it at the start of a text: a number, perhaps a point and another. -/
def placeAt (s : Text) (octet : Nat) : Option (Nat × Nat × Text) :=
  let field := s.takeWhile Char.isDigit
  let rest := s.drop field.length
  if field.isEmpty then none
  else
    match rest with
    | '.' :: behind =>
      let digits := behind.takeWhile Char.isDigit
      if digits.isEmpty then none
      else some (Number.ofDigits 10 field, Number.ofDigits 10 digits, behind.drop digits.length)
    | _ => some (Number.ofDigits 10 field, octet, rest)

/-- The key that a word tells, or what is wrong with it. -/
def key (w : Text) : Except Text Key := do
  let badField (what : String) : Except Text Key :=
    .error ("invalid number " ++ what.toList ++ ": invalid count at start of " ++ quoted w)
  let letters (s : Text) : Text := s.takeWhile (· != ',')
  match placeAt w 1 with
  | none => badField "at field start"
  | some (0, _, _) => .error ("field number is zero: invalid field specification " ++ quoted w)
  | some (field, octet, rest) =>
    let stray : Except Text Key :=
      .error ("stray character in field spec: invalid field specification " ++ quoted w)
    match mannerOf? {} (letters rest) with
    | none => stray
    | some manner =>
      let k : Key := { startField := field, startOctet := octet, manner := manner }
      match rest.drop (letters rest).length with
      | [] => return k
      | _ :: behind =>
        match placeAt behind 0 with
        | none => badField "after \x27,\x27"
        | some (last, octet, rest) =>
          match mannerOf? manner rest with
          | none => stray
          | some manner =>
            return { k with endField := some last, endOctet := octet, manner := manner }

/-- Whether an octet is a blank between fields. -/
def isBlank (c : Char) : Bool := c == ' ' || c == '\t'

/-- The numbers of octets where the fields of a line start and end. -/
def fieldBounds (separator : Option Char) (line : Text) : List (Nat × Nat) :=
  match separator with
  | some c =>
    ((Text.pieces c line).foldl (fun (found : List (Nat × Nat) × Nat) p =>
      (found.1 ++ [(found.2, found.2 + p.length)], found.2 + p.length + 1)) ([], 0)).1
  | none =>
    let runs := line.splitBy fun a b => isBlank a || !isBlank b
    (runs.foldl (fun (found : List (Nat × Nat) × Nat) p =>
      (found.1 ++ [(found.2, found.2 + p.length)], found.2 + p.length)) ([], 0)).1

def partOf (separator : Option Char) (k : Key) (line : Text) : Text :=
  let bounds := fieldBounds separator line
  let fieldStart (n : Nat) : Nat := ((bounds[n - 1]?).map Prod.fst).getD line.length
  let skipped (from_ : Nat) : Nat :=
    if k.manner.skipsBlanks then from_ + ((line.drop from_).takeWhile isBlank).length else from_
  let start := skipped (fieldStart k.startField) + (k.startOctet - 1)
  let finish := match k.endField with
    | none => line.length
    | some n =>
      if k.endOctet = 0 then ((bounds[n - 1]?).map Prod.snd).getD line.length
      else skipped (fieldStart n) + k.endOctet
  (line.take finish).drop start

/-- The number at the start of a text, as a fraction. -/
def numberOf (s : Text) : Int × Nat :=
  let s := s.dropWhile fun c => isBlank c || c == '\n'
  let (negative, digits) := match s with
    | '-' :: rest => (true, rest)
    | _ => (false, s)
  let (whole, part, _) := Real.fractionAt 10 digits
  let n : Int := Number.ofDigits 10 (whole ++ part)
  (if negative then -n else n, Nat.pow 10 part.length)

/-- The rank of the unit behind a number. -/
def unitOf (s : Text) : Nat :=
  let s := s.dropWhile fun c => isBlank c || c == '-' || c.isDigit || c == '.'
  match s with
  | c :: _ =>
    let rank := "KMGTPEZY".toList.findIdx (· == c.toUpper)
    if rank < 8 then rank + 1 else 0
  | [] => 0

/-- Compares two fractions. -/
def compareNumbers (a b : Int × Nat) : Ordering := compare (a.1 * b.2) (b.1 * a.2)

def signOf (a : Int × Nat) : Int := a.1.sign

/-- The runs of digits and of other octets in a name. -/
def versionRuns (s : Text) : List Text := s.splitBy fun a b => a.isDigit == b.isDigit

/-- Compares names in which numbers count as such. -/
def compareVersions (a b : List Text) : Ordering :=
  match a, b with
  | [], [] => .eq
  | [], _ => .lt
  | _, [] => .gt
  | x :: xs, y :: ys =>
    let here := match Number.natural? x, Number.natural? y with
      | some m, some n => compare m n
      | _, _ => compare (x.map Char.toNat) (y.map Char.toNat)
    if here = .eq then compareVersions xs ys else here

/-- Compares two parts of lines. -/
def compareParts (m : Manner) (a b : Text) : Ordering :=
  let plain (s : Text) : Text :=
    let s := if m.dictionary then s.filter fun c => isBlank c || c.isAlphanum else s
    if m.folds then s.map Char.toUpper else s
  if m.numeric then compareNumbers (numberOf a) (numberOf b)
  else if m.human then
    let x := numberOf a
    let y := numberOf b
    let rank (s : Text) (n : Int × Nat) : Int := signOf n * unitOf s
    (compare (signOf x) (signOf y)).then ((compare (rank a x) (rank b y)).then (compareNumbers x y))
  else if m.versions then compareVersions (versionRuns a) (versionRuns b)
  else compare ((plain a).map Char.toNat) ((plain b).map Char.toNat)

/-- How all lines are compared. -/
structure Order where
  keys : List Key
  separator : Option Char
  manner : Manner

/-- Compares two lines by their keys. -/
def Order.byKeys (o : Order) (a b : Text) : Ordering :=
  o.keys.foldl (fun found k =>
    let m := if k.manner.isPlain then o.manner else k.manner
    let k := { k with manner := m }
    found.then
      (let here := compareParts m (partOf o.separator k a) (partOf o.separator k b)
       if m.reversed then here.swap else here)) .eq

/-- Compares two lines. -/
def Order.compare (o : Order) (stable : Bool) (a b : Text) : Ordering :=
  let found := o.byKeys a b
  if found ≠ .eq ∨ stable then found
  else
    let whole := Ord.compare (a.map Char.toNat) (b.map Char.toNat)
    if o.manner.reversed then whole.swap else whole

/-- The first of neighbouring lines that agree. -/
def distinct (o : Order) : List Text → List Text
  | [] => []
  | [a] => [a]
  | a :: b :: rest =>
    match distinct o (b :: rest) with
    | [] => [a]
    | c :: others => if o.byKeys a b = .eq then a :: others else a :: c :: others

/-- The number and the text of the first line that should be before the one above it. -/
def disorder? (o : Order) (stable strict : Bool) : Nat → List Text → Option (Nat × Text)
  | n, a :: b :: rest =>
    let found := o.compare (stable || strict) a b
    if found = .gt ∨ (strict ∧ found = .eq) then some (n + 1, b)
    else disorder? o stable strict (n + 1) (b :: rest)
  | _, _ => none

end Sorting

/-- Prints lines in order. -/
def sort : Program := fun _ words => do
  let shape : Shape :=
    { letters := "bcCdfghik:mno:rst:uVz", status := 2
      names := [("check", 'c'), ("dictionary-order", 'd'), ("field-separator", 't'),
        ("human-numeric-sort", 'h'), ("ignore-case", 'f'), ("ignore-leading-blanks", 'b'),
        ("key", 'k'), ("numeric-sort", 'n'), ("output", 'o'), ("reverse", 'r'), ("stable", 's'),
        ("unique", 'u'), ("version-sort", 'V')] }
  let call ← readCall shape words
  let name := call.name
  let keys ← (call.words 'k').mapM fun w =>
    match Sorting.key w with
    | .ok k => pure k
    | .error message => failWith 2 name message
  let separator ← match call.word? 't' with
    | none => pure none
    | some [] => failWith 2 name "empty tab"
    | some [c] => pure (some c)
    | some ['\\', '0'] => pure (some '\x00')
    | some w => failWith 2 name ("multi-character tab " ++ quoted w)
  let manner := call.options.foldl (fun (m : Sorting.Manner) o => (m.with? o.1).getD m) {}
  let order : Sorting.Order :=
    ⟨if keys.isEmpty then [{ startField := 1, manner := manner }] else keys, separator, manner⟩
  let complaint (file : Text) (fault : InputFault) : Text :=
    match fault with
    | .unopened e => "cannot read: " ++ shownPath file ++ ": " ++ e.description
    | .unread e => "read failed: " ++ shownPath file ++ ": " ++ e.description
  let (content, all) ← (filesOf call.operands).foldlM (fun (found : List Text × Bool) file => do
    match ← readInput file with
    | .ok content => return (found.1 ++ linesOf content, found.2)
    | .error fault => failWith 2 name (complaint file fault)) ([], true)
  let stable := call.has 's' || call.has 'u'
  if call.has 'c' ∨ call.has 'C' then
    match Sorting.disorder? order stable (call.has 'u') 1 content with
    | none => return 0
    | some (n, line) =>
      if call.has 'c' then
        let file := (filesOf call.operands).headD []
        complain name (file ++ ":" ++ Text.ofNat n ++ ": disorder: " ++ line)
      return 1
  else
    let sorted := content.mergeSort fun a b => order.compare stable a b != .gt
    let lines := if call.has 'u' then Sorting.distinct order sorted else sorted
    match call.word? 'o' with
    | none => emit name (unlines lines)
    | some file =>
      let request : Process.OpenRequest :=
        { access := { writes := true }, creates := true, truncates := true }
      match ← Process.openPath file request with
      | .ok n => let _ ← Process.writeFile n (unlines lines)
      | .error e => failWith 2 name ("open failed: " ++ shownPath file ++ ": " ++ e.description)
    return statusOf all

/-! ### Repeated lines -/

def groupLines (agree : Text → Text → Bool) (lines : List Text) : List (List Text) :=
  lines.splitBy agree

def comparedPart (fields octets : Nat) (width : Option Nat) (folds : Bool) (line : Text) : Text :=
  let skipField (s : Text) : Text :=
    (s.dropWhile Sorting.isBlank).dropWhile fun c => !Sorting.isBlank c
  let s := ((List.range fields).foldl (fun s _ => skipField s) line).drop octets
  let s := match width with
    | some n => s.take n
    | none => s
  if folds then s.map Char.toUpper else s

/-- Prints lines without those that repeat the one before. -/
def uniq : Program := fun _ words => do
  let shape : Shape :=
    { letters := "cdDf:is:uw:z"
      names := [("count", 'c'), ("repeated", 'd'), ("ignore-case", 'i'), ("skip-fields", 'f'),
        ("skip-chars", 's'), ("unique", 'u'), ("check-chars", 'w')] }
  let call ← readCall shape words
  let name := call.name
  let number (letter : Char) (what : Text) : Process (Option Nat) := do
    match call.word? letter with
    | none => return none
    | some w =>
      match Number.natural? w with
      | some n => return some n
      | none => failWith 1 name (w ++ ": invalid number of " ++ what)
  let fields ← number 'f' "fields to skip"
  let octets ← number 's' "bytes to skip"
  let width ← number 'w' "bytes to compare"
  match call.operands with
  | _ :: _ :: extra :: _ => misuse name ("extra operand " ++ quoted extra)
  | _ => pure ()
  let file := call.operands.headD ['-']
  let content ← match ← readInput file with
    | .ok content => pure content
    | .error (.unopened e) => failWith 1 name (shownPath file ++ ": " ++ e.description)
    | .error (.unread e) =>
      failWith 1 name ("error reading " ++ quotedPath file ++ ": " ++ e.description)
  let part := comparedPart (fields.getD 0) (octets.getD 0) width (call.has 'i')
  let groups := groupLines (fun a b => part a == part b) (linesOf content)
  let wanted := groups.filter fun g =>
    if call.has 'd' ∨ call.has 'D' then 1 < g.length && !call.has 'u'
    else !call.has 'u' || g.length = 1
  let shown := wanted.flatMap fun g =>
    if call.has 'D' then g
    else if call.has 'c' then
      let digits := Text.ofNat g.length
      [List.replicate (7 - digits.length) ' ' ++ digits ++ ' ' :: g.headD []]
    else g.take 1
  match call.operands.drop 1 with
  | [] => emit name (unlines shown)
  | output :: _ =>
    let request : Process.OpenRequest :=
      { access := { writes := true }, creates := true, truncates := true }
    match ← Process.openPath output request with
    | .ok n => let _ ← Process.writeFile n (unlines shown)
    | .error e => failWith 1 name (shownPath output ++ ": " ++ e.description)
  return 0

end NinjaPlan.Tool
