import NinjaPlan.Posix.Text.Directive

/-! # Formats

A format is a text with directives, each of which takes an argument and writes it.  A format is
gone through again as long as it takes arguments and some are left.

Printers differ in what a backslash begins and in what they say about arguments that do not fit;
a `FormatStyle` tells.  The characters of formats and arguments are octets. -/

namespace NinjaPlan

/-- What a backslash begins. -/
inductive Escape where
  /-- Some octets, and the text behind the escape. -/
  | octets (written rest : Text)
  /-- The end of all output. -/
  | stop

namespace Escape

/-- An octet that one letter stands for. -/
def letters : List (Char × Char) :=
  [('\\', '\\'), ('a', '\x07'), ('b', '\x08'), ('e', '\x1b'), ('f', '\x0c'), ('n', '\n'),
    ('r', '\r'), ('t', '\t'), ('v', '\x0b')]

/-- The octet of a number, of which only the low bits count. -/
def octet (n : Nat) : Char := Char.ofNat (n % 256)

/-- At most a number of digits in a base at the start of a text. -/
def digits (base limit : Nat) (s : Text) : Text := (s.take limit).takeWhile fun c =>
  Number.digitValue c < base

/-- What a text behind a backslash stands for: a letter's octet, or up to three octal digits.  An
escape without a meaning stands for itself. -/
def plain (s : Text) : Escape :=
  match s with
  | [] => .octets ['\\'] []
  | c :: rest =>
    match digits 8 3 s with
    | [] =>
      match letters.lookup c with
      | some octet => .octets [octet] rest
      | none => .octets ['\\'] s
    | run => .octets [octet (Number.ofDigits 8 run)] (s.drop run.length)

/-- What a text behind a backslash stands for where a `c` ends the output and a zero may come
before three octal digits. -/
def stopping (s : Text) : Escape :=
  match s with
  | 'c' :: _ => .stop
  | '0' :: c :: rest => if Number.digitValue c < 8 then plain (c :: rest) else plain s
  | _ => plain s

/-- The text with its escapes replaced, and whether it ends the output; the number bounds how
many octets are read. -/
def replaceFrom (escape : Text → Escape) : Nat → Text → List Text → Text × Bool
  | 0, _, found => (found.reverse.flatten, false)
  | fuel + 1, s, found =>
    match s with
    | [] => (found.reverse.flatten, false)
    | '\\' :: rest =>
      match escape rest with
      | .octets written rest => replaceFrom escape fuel rest (written :: found)
      | .stop => (found.reverse.flatten, true)
    | c :: rest => replaceFrom escape fuel rest ([c] :: found)

/-- The text with its escapes replaced, and whether it ends the output. -/
def replace (escape : Text → Escape) (s : Text) : Text × Bool :=
  replaceFrom escape (s.length + 1) s []

end Escape

inductive ArgumentFault where
  /-- It is no number. -/
  | noNumber
  /-- It is a number and more. -/
  | moreThanNumber
  | outOfRange
  /-- It is a character and the given text. -/
  | moreThanCharacter (rest : Text)
deriving DecidableEq

/-- How a printer goes about its work. -/
structure FormatStyle where
  realNumbers : Precision
  /-- What a backslash begins in a format. -/
  escape : Text → Escape
  /-- What it begins in an argument with escapes. -/
  argumentEscape : Text → Escape
  /-- What the printer says about an argument. -/
  complaint : Text → ArgumentFault → Option Text
  /-- Whether the fault makes the printer fail. -/
  fails : ArgumentFault → Bool
  /-- What the printer says about a directive. -/
  noConversion : Text → Text

/-- How far a format has been gone through. -/
structure Formatting where
  arguments : List Text
  /-- What has been written, last first. -/
  written : List Text := []
  /-- What has been said, last first. -/
  complaints : List Text := []
  failed : Bool := false

/-- Why formatting ends early. -/
inductive FormatStop where
  | finished
  | wrong (message : Text)

abbrev Formatter := ExceptT FormatStop (StateM Formatting)

namespace Formatter

/-- Writes octets. -/
def emit (s : Text) : Formatter Unit := modify fun f => { f with written := s :: f.written }

/-- Takes an argument, if one is left. -/
def argument? : Formatter (Option Text) := do
  let f ← get
  match f.arguments with
  | [] => return none
  | a :: rest =>
    set { f with arguments := rest }
    return some a

def report (style : FormatStyle) (a : Text) (fault : ArgumentFault) : Formatter Unit := do
  match style.complaint a fault with
  | none => pure ()
  | some message => modify fun f => { f with complaints := message :: f.complaints }
  if style.fails fault then modify fun f => { f with failed := true }

/-- The number of a character behind a quote. -/
def character (style : FormatStyle) (a rest : Text) : Formatter Nat := do
  match rest with
  | [] => return 0
  | [c] => return c.toNat
  | c :: more =>
    report style a (.moreThanCharacter more)
    return c.toNat

/-- Reports that an argument is not a number as a whole. -/
def reportRest (style : FormatStyle) (a rest : Text) (isNumber outOfRange : Bool) :
    Formatter Unit := do
  if !rest.isEmpty then report style a (if isNumber then .moreThanNumber else .noNumber)
  else if outOfRange then report style a .outOfRange

/-- Takes an argument that is a number between bounds; zero if there is none. -/
def integer (style : FormatStyle) (least greatest : Int) : Formatter Int := do
  match ← argument? with
  | none => return 0
  | some ('\x27' :: rest) => character style ('\x27' :: rest) rest
  | some ('\x22' :: rest) => character style ('\x22' :: rest) rest
  | some a =>
    match Number.integerAt? a with
    | none =>
      reportRest style a a false false
      return 0
    | some (n, rest) =>
      let clamped := max least (min greatest n)
      reportRest style a rest true (clamped != n)
      return clamped

/-- The greatest number with a sign. -/
def greatest : Int := Int.pow 2 63 - 1

/-- The greatest number without a sign. -/
def greatestNatural : Int := Int.pow 2 64 - 1

/-- Takes an argument that is a number with a sign. -/
def signed (style : FormatStyle) : Formatter Int := integer style (-greatest - 1) greatest

/-- Takes an argument that is a number without a sign; a negative one wraps around. -/
def unsigned (style : FormatStyle) : Formatter Nat := do
  let n ← integer style (-greatestNatural - 1) greatestNatural
  return if n < -greatestNatural then greatestNatural.toNat else (n % Int.pow 2 64).toNat

def real (style : FormatStyle) : Formatter Real := do
  match ← argument? with
  | none => return .finite false 0 1
  | some ('\x27' :: rest) => return .finite false (← character style ('\x27' :: rest) rest) 1
  | some ('\x22' :: rest) => return .finite false (← character style ('\x22' :: rest) rest) 1
  | some a =>
    match Real.readAt? style.realNumbers a with
    | none =>
      reportRest style a a false false
      return .finite false 0 1
    | some r =>
      reportRest style a r.rest true r.outOfRange
      return r.value

/-- Reads a number in a directive, which a star takes from the arguments. -/
def measure (style : FormatStyle) (s : Text) : Formatter (Option Int × Text) := do
  match s with
  | '*' :: rest => return (some (← signed style), rest)
  | _ =>
    let run := s.takeWhile Char.isDigit
    return (if run.isEmpty then none else some (Number.ofDigits 10 run), s.drop run.length)

/-- Reads the directive at the start of a text, behind its mark, up to its conversion. -/
def directive (style : FormatStyle) (s : Text) : Formatter (Directive × Text) := do
  let flags := s.takeWhile Directive.flagChars.contains
  let (width, rest) ← measure style (s.drop flags.length)
  let d := (Directive.ofFlags flags).withWidth (width.getD 0)
  match rest with
  | '.' :: rest =>
    let (precision, rest) ← measure style rest
    return (d.withPrecision (precision.getD 0), rest)
  | _ => return (d, rest)

/-- Writes an argument by a directive. -/
def convert (style : FormatStyle) (d : Directive) (written : Text) : Formatter Unit := do
  match d.conversion with
  | 's' => emit (d.text ((← argument?).getD []))
  | 'b' =>
    let (s, stops) := Escape.replace style.argumentEscape ((← argument?).getD [])
    emit (d.text s)
    if stops then throw .finished
  | 'c' => emit (d.pad [(((← argument?).getD []).head?).getD '\x00'])
  | 'd' | 'i' => emit (d.signed (← signed style))
  | 'o' | 'u' | 'x' | 'X' => emit (d.unsigned (← unsigned style))
  | 'e' | 'E' | 'f' | 'F' | 'g' | 'G' => emit (d.real (← real style))
  | _ => throw (.wrong (style.noConversion written))

/-- What a printer says about a mark without a conversion. -/
def unfinished : Text := "missing format character"

/-- Goes through a format once; the number bounds how many octets it has. -/
def pass (style : FormatStyle) : Nat → Text → Formatter Unit
  | 0, _ => return
  | _, [] => return
  | fuel + 1, '\\' :: rest =>
    match style.escape rest with
    | .octets written rest => do
      emit written
      pass style fuel rest
    | .stop => throw .finished
  | fuel + 1, '%' :: '%' :: rest => do
    emit ['%']
    pass style fuel rest
  | fuel + 1, '%' :: text => do
    let (d, rest) ← directive style text
    match rest with
    | [] => throw (.wrong unfinished)
    | c :: rest =>
      convert style { d with conversion := c } ('%' :: text.take (text.length - rest.length))
      pass style fuel rest
  | fuel + 1, c :: rest => do
    emit [c]
    pass style fuel rest

/-- Goes through a format as long as it takes arguments and some are left. -/
def passes (style : FormatStyle) (format : Text) : Nat → Formatter Unit
  | 0 => return
  | fuel + 1 => do
    let before := (← get).arguments.length
    pass style (format.length + 1) format
    let left := (← get).arguments.length
    if 0 < left ∧ left < before then passes style format fuel

end Formatter

structure Formatted where
  output : Text
  complaints : List Text
  failed : Bool
  /-- What ended it early. -/
  fault : Option Text
  /-- The arguments that the format did not take. -/
  left : List Text

def FormatStyle.format (style : FormatStyle) (format : Text) (arguments : List Text) : Formatted :=
  let (result, f) :=
    (Formatter.passes style format (arguments.length + 1)).run { arguments := arguments }
  { output := f.written.reverse.flatten
    complaints := f.complaints.reverse
    failed := f.failed
    fault := match result with
      | .error (.wrong message) => some message
      | _ => none
    left := f.arguments }

end NinjaPlan
