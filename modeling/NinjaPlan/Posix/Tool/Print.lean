import NinjaPlan.Posix.Script.Condition
import NinjaPlan.Posix.Text.Format
import NinjaPlan.Posix.Tool.Basic

/-! # Tools that print

Tools that print what their arguments tell: `echo`, `printf`, `yes`, `seq`, `basename`, `dirname`
and some that only know one answer. -/

namespace NinjaPlan.Tool

/-! ### Words -/

/-- What a text behind a backslash stands for where an `x` begins hexadecimal digits. -/
def escapeWithHex (plain : Text → Escape) (s : Text) : Escape :=
  match s with
  | 'x' :: rest =>
    match Escape.digits 16 2 rest with
    | [] => plain s
    | run => .octets [Escape.octet (Number.ofDigits 16 run)] (rest.drop run.length)
  | _ => plain s

/-- Whether a word holds the options of `echo`. -/
def isEchoOption (w : Text) : Bool :=
  match w with
  | '-' :: c :: letters => (c :: letters).all "neE".toList.contains
  | _ => false

/-- Prints words. -/
def echo : Program := fun _ words => do
  let name := words.headD []
  let options := (words.drop 1).takeWhile isEchoOption
  let letters := options.flatten
  let text := [' '].intercalate (words.drop (1 + options.length))
  let escapes := (letters.filter fun c => c == 'e' || c == 'E').getLast? == some 'e'
  let (shown, stops) :=
    if escapes then Escape.replace (escapeWithHex Escape.stopping) text else (text, false)
  emit name (shown ++ if stops ∨ letters.contains 'n' then [] else ['\n'])
  return 0

/-- What a text behind a backslash stands for in a format. -/
def formatEscape (s : Text) : Escape :=
  match s with
  | 'c' :: _ => .stop
  | '\x22' :: rest => .octets ['\x22'] rest
  | _ => escapeWithHex Escape.plain s

/-- How `printf` goes about its work. -/
def printfStyle : FormatStyle where
  realNumbers := .extended
  escape := formatEscape
  argumentEscape := escapeWithHex Escape.stopping
  complaint a fault := some (match fault with
    | .noNumber => quoted a ++ ": expected a numeric value"
    | .moreThanNumber => quoted a ++ ": value not completely converted"
    | .outOfRange => quoted a ++ ": Numerical result out of range"
    | .moreThanCharacter rest =>
      "warning: " ++ rest ++ ": character(s) following character constant have been ignored")
  fails fault := match fault with
    | .moreThanCharacter _ => false
    | _ => true
  noConversion written := written ++ ": invalid conversion specification"

/-- Prints arguments by a format. -/
def printf : Program := fun _ words => do
  let name := words.headD []
  let rest := match words.drop 1 with
    | ['-', '-'] :: rest => rest
    | rest => rest
  match rest with
  | [] => misuse name "missing operand"
  | format :: arguments =>
    let done := printfStyle.format format arguments
    done.complaints.forM (complain name)
    match done.fault with
    | some message =>
      emit name done.output
      failWith 1 name message
    | none =>
      match done.left, done.left.length == arguments.length with
      | first :: _, true =>
        complain name ("warning: ignoring excess arguments, starting with " ++ quoted first)
      | _, _ => pure ()
      emit name done.output
      return statusOf !done.failed

/-- Repeats a line until it cannot be printed; the number bounds how often. -/
def repeatLine (name line : Text) : Nat → Process Unit
  | 0 => return
  | n + 1 => do
    emit name line
    repeatLine name line n

/-- How many lines are printed at once. -/
def lineBatch : Nat := 1024

/-- Repeats its arguments without end. -/
def yes : Program := fun _ words => do
  let call ← readCall { letters := [] } words
  let line := if call.operands.isEmpty then ['y'] else [' '].intercalate call.operands
  let batch := (List.replicate lineBatch (line ++ ['\n'])).flatten
  repeatLine call.name batch 0x1000000
  return 0

/-! ### Numbers in sequence -/

/-- A decimal number: the digits before a number of places. -/
structure Decimal where
  digits : Int
  places : Nat

/-- The decimal number that a word spells. -/
def decimal? (s : Text) : Option Decimal :=
  let (negative, rest) := Number.signAt (s.dropWhile Number.isSpace)
  let (whole, part, rest) := Real.fractionAt 10 rest
  let (exponent, rest) := Real.exponentAt 'e' rest
  if (whole.isEmpty && part.isEmpty) || !rest.isEmpty || Real.exponentLimit < exponent then none
  else
    let n : Int := Number.ofDigits 10 (whole ++ part)
    let places : Int := part.length - exponent
    let n := if negative then -n else n
    some (if places < 0 then ⟨n * Int.pow 10 (-places).toNat, 0⟩ else ⟨n, places.toNat⟩)

/-- The digits of a number with a number of places. -/
def Decimal.at (d : Decimal) (places : Nat) : Int := d.digits * Int.pow 10 (places - d.places)

/-- Digits with a point before a number of places, as wide as wanted. -/
def showDecimal (places width : Nat) (n : Int) : Text :=
  let sign : Text := if n < 0 then ['-'] else []
  let digits := Real.pointed places false n.natAbs
  sign ++ List.replicate (width - sign.length - digits.length) '0' ++ digits

/-- The numbers from one to another in steps; the number bounds how many there are. -/
def countFrom (step last : Int) : Nat → Int → List Int
  | 0, _ => []
  | fuel + 1, n =>
    if (0 < step ∧ last < n) ∨ (step < 0 ∧ n < last) then []
    else n :: countFrom step last fuel (n + step)

/-- A decimal number that a word must spell. -/
def decimalOf (name w : Text) : Process Decimal := do
  match decimal? w with
  | some d => return d
  | none => misuse name ("invalid floating point argument: " ++ quoted w)

/-- The options of `seq` and the words behind them: a word that begins like a number is none. -/
def splitSequence : List Text → List Text × List Text
  | [] => ([], [])
  | w :: rest =>
    match w with
    | '-' :: c :: _ =>
      if c = '.' ∨ c.isDigit then ([], w :: rest)
      else if w = "-s" ∨ w = "-f" then
        let (options, operands) := splitSequence (rest.drop 1)
        (w :: rest.take 1 ++ options, operands)
      else
        let (options, operands) := splitSequence rest
        (w :: options, operands)
    | _ => ([], w :: rest)
termination_by words => words.length
decreasing_by all_goals simp_all; try omega

/-- Prints the numbers from one to another. -/
def seq : Program := fun _ words => do
  let (options, operands) := splitSequence (words.drop 1)
  let shape : Shape :=
    { letters := "s:f:w"
      names := [("separator", 's'), ("format", 'f'), ("equal-width", 'w')] }
  let call ← readCall shape (words.headD [] :: options)
  let name := call.name
  let ask := decimalOf name
  let (first, step, last) ← match operands with
    | [] => misuse name "missing operand"
    | [c] => pure ((⟨1, 0⟩ : Decimal), (⟨1, 0⟩ : Decimal), ← ask c)
    | [a, c] => pure (← ask a, (⟨1, 0⟩ : Decimal), ← ask c)
    | [a, b, c] => pure (← ask a, ← ask b, ← ask c)
    | _ :: _ :: _ :: extra :: _ => misuse name ("extra operand " ++ quoted extra)
  if step.digits = 0 then misuse name ("invalid Zero increment value: " ++ quoted "0")
  let places := max first.places (max step.places last.places)
  let shown := max first.places step.places
  let whole := Int.pow 10 (places - shown)
  let count := ((last.at places - first.at places) / step.at places + 1).toNat
  let numbers := countFrom (step.at places) (last.at places) count (first.at places)
  let numbers := numbers.map (· / whole)
  let widths := [numbers.head?, numbers.getLast?].filterMap fun n? =>
    n?.map fun n => (showDecimal shown 0 n).length
  let width := if call.has 'w' then widths.foldl max 0 else 0
  let written (n : Int) : Text :=
    match call.word? 'f' with
    | some format => (printfStyle.format format [showDecimal shown 0 n]).output
    | none => showDecimal shown width n
  if !numbers.isEmpty then
    emit name ((call.word? 's').getD ['\n'] |>.intercalate (numbers.map written))
    emit name ['\n']
  return 0

/-! ### Names of files -/

/-- A path without the slashes at its end. -/
def withoutSlashes (s : Text) : Text := (s.reverse.dropWhile (· == '/')).reverse

def lastName (s : Text) : Text :=
  let trimmed := withoutSlashes s
  if trimmed.isEmpty then s.take 1
  else ((trimmed.reverse.takeWhile (· != '/'))).reverse

/-- A name without a given end, unless that is all of it. -/
def withoutEnd (ending s : Text) : Text :=
  if ending.isSuffixOf s ∧ s ≠ ending then s.take (s.length - ending.length) else s

/-- Prints the last names of paths. -/
def basename : Program := fun _ words => do
  let shape : Shape :=
    { letters := "as:z", mixed := false
      names := [("multiple", 'a'), ("suffix", 's'), ("zero", 'z')] }
  let call ← readCall shape words
  let ending : Text := if call.has 'z' then ['\x00'] else ['\n']
  let write (suffix path : Text) : Process Unit :=
    emit call.name (withoutEnd suffix (lastName path) ++ ending)
  if call.operands.isEmpty then misuse call.name "missing operand"
  if call.has 'a' ∨ call.has 's' then
    call.operands.forM (write ((call.word? 's').getD []))
  else
    match call.operands with
    | _ :: _ :: extra :: _ => misuse call.name ("extra operand " ++ quoted extra)
    | [path, suffix] => write suffix path
    | paths => paths.forM (write [])
  return 0

/-- The path of the directory that a path is in. -/
def directoryName (s : Text) : Text :=
  let trimmed := withoutSlashes s
  let above := (trimmed.reverse.dropWhile (· != '/')).reverse
  if trimmed.isEmpty then (if s.isEmpty then ['.'] else ['/'])
  else if above.isEmpty then ['.']
  else
    let above := withoutSlashes above
    if above.isEmpty then ['/'] else above

/-- Prints the paths of the directories that paths are in. -/
def dirname : Program := fun _ words => do
  let call ← readCall { letters := "z", names := [("zero", 'z')] } words
  if call.operands.isEmpty then misuse call.name "missing operand"
  let ending : Text := if call.has 'z' then ['\x00'] else ['\n']
  call.operands.forM fun path => emit call.name (directoryName path ++ ending)
  return 0

/-! ### Others -/

def nothing (status : Nat) : Program := fun _ _ => return status

def judge (bracket : Bool) : Program := fun _ words => do
  let name := words.headD []
  let arguments := words.drop 1
  if bracket ∧ arguments.getLast? ≠ some [']'] then
    failWith 2 name ("missing " ++ quoted "]")
  let t ← Process.tree
  let here ← Process.directory
  match Script.Condition.judge t here (if bracket then arguments.dropLast else arguments) with
  | .ok holds => return statusOf holds
  | .error message => failWith 2 name message

def pwd : Program := fun _ words => do
  let path := Octets.ofBytes (Location.path (← Process.directory))
  emit (words.headD []) (path ++ ['\n'])
  return 0

/-- Waits, which takes no time. -/
def sleep : Program := fun _ words => do
  let call ← readCall { letters := [] } words
  if call.operands.isEmpty then misuse call.name "missing operand"
  let isTime (w : Text) : Bool :=
    match Real.readAt? .double w with
    | some r => r.rest.isEmpty || ["s", "m", "h", "d"].any fun unit => r.rest == unit.toList
    | none => false
  call.operands.forM fun w => do
    if !isTime w then misuse call.name ("invalid time interval " ++ quoted w)
  return 0

/-- Prints the value of environment variables, or all of them. -/
def printenv : Program := fun _ words => do
  let call ← readCall { letters := "0", names := [("null", '0')], status := 2 } words
  let environment := (← get).process.environment
  let ending : Text := if call.has '0' then ['\x00'] else ['\n']
  if call.operands.isEmpty then
    emit call.name (environment.flatMap fun (n, v) => n ++ '=' :: v ++ ending)
    return 0
  else
    let found := call.operands.map fun n => environment.lookup n
    emit call.name (found.flatMap fun v? => (v?.map (· ++ ending)).getD [])
    return statusOf (found.all Option.isSome)

/-- Prints the name of the system. -/
def uname : Program := fun _ words => do
  let call ← readCall { letters := "asnrvmpio" } words
  let names : List (Char × Text) :=
    [('s', "Linux"), ('n', "localhost"), ('m', "x86_64"), ('o', "GNU/Linux")]
  let wanted := if call.options.isEmpty then names.take 1
    else if call.has 'a' then names
    else names.filter fun n => call.has n.1
  emit call.name ([' '].intercalate (wanted.map Prod.snd) ++ ['\n'])
  return 0

/-- Prints the name of the user. -/
def whoami : Program := fun _ words => do
  emit (words.headD []) "root\n"
  return 0

end NinjaPlan.Tool
