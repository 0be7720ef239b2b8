import NinjaPlan.Posix.Tool.Basic

/-! # Tools that read and print

Tools that print what they read, or a part of it, or something about it: `cat`, `head`, `tail`,
`tac`, `rev`, `nl`, `wc`, `tee` and `paste`. -/

namespace NinjaPlan.Tool

/-! ### All of it -/

/-- How `cat` shows what it reads. -/
structure CatStyle where
  numbers : Bool
  /-- Only lines that hold something are numbered. -/
  numbersFilled : Bool
  squeezes : Bool
  showsEnds : Bool
  showsTabs : Bool
  showsOthers : Bool

/-- An octet that cannot be printed, as a reader sees it. -/
def visible (c : Char) : Text :=
  let low (n : Nat) : Text :=
    if n < 32 then ['^', Char.ofNat (n + 64)] else if n = 127 then "^?" else [Char.ofNat n]
  let n := c.toNat
  if c = '\n' ∨ c = '\t' then [c] else if n < 128 then low n else "M-" ++ low (n - 128)

/-- A number before a line. -/
def numberColumn (width n : Nat) : Text :=
  let digits := Text.ofNat n
  List.replicate (width - digits.length) ' ' ++ digits ++ ['\t']

/-- Shows lines from a number on, after as many empty ones. -/
def showLines (style : CatStyle) : Nat → Nat → List Text → Text
  | _, _, [] => []
  | n, blank, line :: rest =>
    let isBlank := line = ['\n']
    if style.squeezes ∧ isBlank ∧ 1 ≤ blank then showLines style n (blank + 1) rest
    else
      let counted := style.numbers && !(style.numbersFilled && isBlank)
      let (text, ending) : Text × Text :=
        if line.getLast? = some '\n' then
          (line.dropLast, if style.showsEnds then "$\n" else ['\n'])
        else (line, [])
      let text := if style.showsOthers then text.flatMap visible else text
      let text := if style.showsTabs then
          text.flatMap fun c => if c = '\t' then "^I".toList else [c]
        else text
      (if counted then numberColumn 6 n else []) ++ text ++ ending ++
        showLines style (if counted then n + 1 else n) (if isBlank then blank + 1 else 0) rest

/-- Reports standard input, if it is among some files and there is none to close. -/
def checkInput (name : Text) (files : List Text) : Process Unit := do
  if files.contains ['-'] && (← Process.connected? 0).isNone then
    complain name ("closing standard input: " ++ OsError.badDescriptor.description)

/-- Prints files one after another. -/
def cat : Program := fun _ words => do
  let shape : Shape :=
    { letters := "AbeEnstTuv"
      names := [("show-all", 'A'), ("number-nonblank", 'b'), ("show-ends", 'E'), ("number", 'n'),
        ("squeeze-blank", 's'), ("show-tabs", 'T'), ("show-nonprinting", 'v')] }
  let call ← readCall shape words
  let any (letters : Text) : Bool := letters.any call.has
  let files := filesOf call.operands
  if (← Process.connected? 1).isNone then
    failWith 1 call.name ("standard output: " ++ OsError.badDescriptor.description)
  if call.options.isEmpty then
    let all ← forInputs call.name pathComplaint (fun _ content => emit call.name content) files
    checkInput call.name files
    return statusOf all
  else
    let style : CatStyle :=
      { numbers := any "bn".toList, numbersFilled := any "b".toList, squeezes := any "s".toList
        showsEnds := any "AeE".toList, showsTabs := any "AtT".toList
        showsOthers := any "Aetv".toList }
    let (content, all) ← readAll call.name pathComplaint files
    emit call.name (showLines style 1 0 (linesWithBreaks content))
    checkInput call.name files
    return statusOf all

/-! ### A part of it -/

/-- The multiples that letters behind a number stand for. -/
def multiples : List (String × Nat) :=
  [("", 1), ("b", 512), ("kB", 1000), ("k", 1024), ("K", 1024), ("KiB", 1024), ("MB", 1000000),
    ("M", 1048576), ("MiB", 1048576)]

/-- The number of lines or octets that a word tells. -/
def amount? (w : Text) : Option Nat :=
  let digits := w.takeWhile Char.isDigit
  let unit := w.drop digits.length
  if digits.isEmpty then none
  else (multiples.find? fun m => m.1.toList == unit).map fun m => Number.ofDigits 10 digits * m.2

/-- A part of a text: some lines or octets from its start or its end. -/
structure Extent where
  octets : Bool := false
  /-- What is told is left out. -/
  without : Bool := false
  count : Nat := 10

/-- The number of lines or octets that a word tells, or a complaint. -/
def extentOf (name : Text) (octets : Bool) (w digits : Text) (without : Bool) :
    Process Extent := do
  match amount? digits with
  | some n => return ⟨octets, without, n⟩
  | none =>
    let what := if octets then "bytes" else "lines"
    failWith 1 name ("invalid number of " ++ what.toList ++ ": " ++ quoted w)

def startOfText (e : Extent) (s : Text) : Text :=
  let units := if e.octets then s.map fun c => [c] else linesWithBreaks s
  (units.take (if e.without then units.length - e.count else e.count)).flatten

def endOfText (e : Extent) (s : Text) : Text :=
  let units := if e.octets then s.map fun c => [c] else linesWithBreaks s
  (units.drop (if e.without then e.count - 1 else units.length - e.count)).flatten

/-- The words of a call in which a number behind a sign at the front is an option. -/
def modernWords (plus : Bool) (words : List Text) : List Text :=
  match words with
  | name :: (sign :: c :: rest) :: others =>
    if (sign = '-' ∨ (plus ∧ sign = '+')) ∧ c.isDigit then
      let run := (c :: rest).takeWhile Char.isDigit
      let letters := (c :: rest).drop run.length
      let count := if sign = '+' then '+' :: run else run
      let option := if letters.contains 'c' then "-c".toList else "-n".toList
      name :: option :: count :: others
    else words
  | _ => words

/-- What says that a file cannot be opened, or not be read. -/
def openComplaint (file : Text) (fault : InputFault) : Text :=
  match fault with
  | .unopened e => "cannot open " ++ quotedPath file ++ " for reading: " ++ e.description
  | .unread e => "error reading " ++ quotedPath file ++ ": " ++ e.description

/-- How files are called above what is shown of them. -/
def heading (isFirst : Bool) (file : Text) : Text :=
  let shown := if file = ['-'] then "standard input".toList else file
  (if isFirst then [] else ['\n']) ++ "==> " ++ shown ++ " <==\n"

/-- Prints a part of each of some files. -/
def printParts (name : Text) (headed : Bool) (part : Text → Text) :
    Bool → List Text → Process Bool
  | _, [] => return true
  | isFirst, file :: rest => do
    match ← readInput file with
    | .ok content =>
      if headed then emit name (heading isFirst file)
      emit name (part content)
      printParts name headed part false rest
    | .error fault =>
      match fault with
      | .unread _ => if headed then emit name (heading isFirst file)
      | _ => pure ()
      complain name (openComplaint file fault)
      let isFirst := match fault with
        | .unread _ => false
        | _ => isFirst
      let _ ← printParts name headed part isFirst rest
      return false

/-- The part of their files that the options of `head` and `tail` tell. -/
def partOf (call : Call) (sign : Char) : Process Extent := do
  let asked := call.options.filter fun o => o.1 == 'n' || o.1 == 'c'
  match asked.getLast? with
  | none => return {}
  | some (letter, w) =>
    let octets := letter == 'c'
    match w with
    | c :: digits =>
      if c = sign then extentOf call.name octets w digits true
      else if c = '-' then extentOf call.name octets digits digits false
      else if c = '+' then extentOf call.name octets w digits false
      else extentOf call.name octets w w false
    | [] => extentOf call.name octets w [] false

def printPart (plus : Bool) (sign : Char) (part : Extent → Text → Text) : Program :=
  fun _ words => do
    let shape : Shape :=
      { letters := "c:n:qvsf"
        names := [("bytes", 'c'), ("lines", 'n'), ("quiet", 'q'), ("silent", 'q'),
          ("verbose", 'v')] }
    let call ← readCall shape (modernWords plus words)
    let extent ← partOf call sign
    let files := filesOf call.operands
    let headed := call.has 'v' || (1 < files.length && !call.has 'q')
    return statusOf (← printParts call.name headed (part extent) true files)

def head : Program := printPart false '-' startOfText

def tail : Program := printPart true '+' endOfText

/-! ### In another order -/

/-- Prints the lines of files, the last first. -/
def tac : Program := fun _ words => do
  let call ← readCall { letters := [] } words
  let complaint (file : Text) (fault : InputFault) : Text :=
    match fault with
    | .unopened e => "failed to open " ++ quotedPath file ++ " for reading: " ++ e.description
    | .unread _ => shownPath file ++ ": read error: " ++ OsError.invalidArgument.description
  let all ← forInputs call.name complaint
    (fun _ content => emit call.name (linesWithBreaks content).reverse.flatten)
    (filesOf call.operands)
  return statusOf all

/-- Prints lines with their octets in reverse. -/
def rev : Program := fun _ words => do
  let call ← readCall { letters := [] } words
  let reversed (line : Text) : Text :=
    if line.getLast? = some '\n' then line.dropLast.reverse ++ ['\n'] else line.reverse
  let complaint (file : Text) (fault : InputFault) : Text :=
    "cannot open " ++ file ++ ": " ++ fault.error.description
  let all ← forInputs call.name complaint
    (fun _ content => emit call.name ((linesWithBreaks content).flatMap reversed))
    (filesOf call.operands)
  return statusOf all

/-- Lines with numbers before them from one on; empty ones have none unless asked for. -/
def numbered (all : Bool) : Nat → List Text → Text
  | _, [] => []
  | n, line :: rest =>
    if all ∨ line ≠ [] then numberColumn 6 n ++ line ++ '\n' :: numbered all (n + 1) rest
    else List.replicate 7 ' ' ++ '\n' :: numbered all n rest

/-- Prints lines with numbers. -/
def nl : Program := fun _ words => do
  let call ← readCall { letters := "b:" } words
  let (content, all) ← readAll call.name pathComplaint (filesOf call.operands)
  emit call.name (numbered (call.word? 'b' == some ['a']) 1 (linesOf content))
  return statusOf all

/-! ### Beside each other -/

/-- The separators of columns, in turn. -/
def separatorsOf (w : Text) : List Text :=
  match w with
  | [] => []
  | '\\' :: c :: rest =>
    (match c with
      | 'n' => ['\n']
      | 't' => ['\t']
      | '0' => []
      | c => [c]) :: separatorsOf rest
  | c :: rest => [c] :: separatorsOf rest

/-- Fields with separators between them, each in its turn. -/
def joinWith (separators : List Text) : Nat → List Text → Text
  | _, [] => []
  | _, [f] => f
  | n, f :: rest =>
    f ++ (separators[n % separators.length]?).getD [] ++ joinWith separators (n + 1) rest

/-- The lines that stand beside each other in columns; the number bounds how many there are. -/
def beside (separators : List Text) : Nat → List (List Text) → List Text
  | 0, _ => []
  | fuel + 1, columns =>
    if columns.all List.isEmpty then []
    else
      joinWith separators 0 (columns.map fun c => c.headD []) ::
        beside separators fuel (columns.map fun c => c.drop 1)

/-- The lines of each of some files; a dash takes lines of standard input in turn with others. -/
def columnsOf (name : Text) : List Text → Process (List (List Text))
  | [] => return []
  | file :: rest => do
    match ← readInput file with
    | .ok content => return linesOf content :: (← columnsOf name rest)
    | .error fault => failWith 1 name (pathComplaint file fault)

/-- Every n-th of some lines, from the start. -/
def everyNth (n : Nat) : Nat → List Text → List Text
  | _, [] => []
  | 0, line :: rest => line :: everyNth n (n - 1) rest
  | k + 1, _ :: rest => everyNth n k rest

/-- The columns of files, in which the lines of standard input are dealt out to its dashes. -/
def dealt (files : List Text) (columns : List (List Text)) : List (List Text) :=
  let dashes := (files.filter (· == ['-'])).length
  let first := ((files.zip columns).find? fun f => f.1 == ['-']).map Prod.snd
  let places := files.foldl (fun (found : List Nat × Nat) f =>
    (found.1 ++ [found.2], if f = ['-'] then found.2 + 1 else found.2)) ([], 0)
  (files.zip (columns.zip places.1)).map fun (file, column, place) =>
    if file = ['-'] ∧ 1 < dashes then everyNth dashes place (first.getD []) else column

/-- Prints the lines of files beside each other, or all lines of a file in one. -/
def paste : Program := fun _ words => do
  let shape : Shape :=
    { letters := "d:sz", names := [("delimiters", 'd'), ("serial", 's')] }
  let call ← readCall shape words
  let separators := separatorsOf ((call.word? 'd').getD ['\t'])
  let separators := if separators.isEmpty then [[]] else separators
  let files := filesOf call.operands
  let columns ← columnsOf call.name files
  let lines := if call.has 's' then columns.map (joinWith separators 0)
    else
      let columns := dealt files columns
      beside separators (columns.foldl (fun n c => max n c.length) 0) columns
  emit call.name (unlines lines)
  return 0

/-! ### Something about it -/

structure Counts where
  lines : Nat := 0
  words : Nat := 0
  octets : Nat := 0
  /-- The longest line. -/
  longest : Nat := 0

/-- The number of words in a text, given whether one has begun. -/
def countWords : Bool → Text → Nat
  | _, [] => 0
  | inside, c :: rest =>
    if Number.isSpace c then countWords false rest
    else (if inside then 0 else 1) + countWords true rest

def countsOf (s : Text) : Counts where
  lines := s.count '\n'
  words := countWords false s
  octets := s.length
  longest := (linesOf s).foldl (fun n l => max n l.length) 0

/-- The counts of two texts together. -/
def Counts.add (a b : Counts) : Counts :=
  ⟨a.lines + b.lines, a.words + b.words, a.octets + b.octets, max a.longest b.longest⟩

/-- Whether an input is a file, whose length is known. -/
def isFile (file : Text) : Process Bool := do
  if file = ['-'] then
    match ← Process.connected? 0 with
    | none => return false
    | some n =>
      match ← Process.openFile? n with
      | some (.file ..) => return true
      | _ => return false
  else
    match (← Process.tree).entryAt (← Process.directory) (Octets.toBytes file) with
    | .ok (.file ..) => return true
    | .error _ => return true
    | _ => return false

/-- Whether all inputs are files. -/
def areFiles : List Text → Process Bool
  | [] => return true
  | file :: rest => do
    if ← isFile file then areFiles rest else return false

/-- The counts of inputs, with complaints about those that cannot be read. -/
def countInputs (name : Text) : List Text → Process (List (Text × Counts) × Bool)
  | [] => return ([], true)
  | file :: rest => do
    match ← readInput file with
    | .ok content =>
      let (counted, all) ← countInputs name rest
      return ((file, countsOf content) :: counted, all)
    | .error fault =>
      complain name (if file = [] then "invalid zero-length file name" else pathComplaint file fault)
      let (counted, _) ← countInputs name rest
      match fault with
      | .unread _ => return ((file, {}) :: counted, false)
      | .unopened _ => return (counted, false)

/-- Counts lines, words and octets. -/
def wc : Program := fun _ words => do
  let shape : Shape :=
    { letters := "clLmw"
      names := [("bytes", 'c'), ("chars", 'm'), ("lines", 'l'), ("max-line-length", 'L'),
        ("words", 'w')] }
  let call ← readCall shape words
  let files := filesOf call.operands
  let regular ← areFiles files
  let (counted, all) ← countInputs call.name files
  let total := counted.foldl (fun sum c => sum.add c.2) ({} : Counts)
  let wants (letter : Char) : Bool := call.has letter
  let plain := call.options.isEmpty
  let shown (c : Counts) : List Nat :=
    (if plain ∨ wants 'l' then [c.lines] else []) ++
      (if plain ∨ wants 'w' then [c.words] else []) ++
      (if wants 'm' then [c.octets] else []) ++
      (if plain ∨ wants 'c' then [c.octets] else []) ++
      (if wants 'L' then [c.longest] else [])
  let single := files.length = 1 ∧ (shown total).length = 1
  let digits := (Text.ofNat total.octets).length
  let width := if single then 1 else if regular then digits else max 7 digits
  let line (c : Counts) (name : Text) : Text :=
    let columns := (shown c).map fun n =>
      let digits := Text.ofNat n
      List.replicate (width - digits.length) ' ' ++ digits
    [' '].intercalate columns ++ name ++ ['\n']
  let named := !call.operands.isEmpty
  counted.forM fun (file, c) => emit call.name (line c (if named then ' ' :: file else []))
  if 1 < files.length then emit call.name (line total " total")
  return statusOf all

/-- Writes to files what it reads, and prints it. -/
def tee : Program := fun _ words => do
  let call ← readCall { letters := "ai", names := [("append", 'a')] } words
  let content ← match ← Process.read 0 with
    | .ok content => pure content
    | .error e => failWith 1 call.name ("read error: " ++ e.description)
  let appends := call.has 'a'
  let request : Process.OpenRequest :=
    { access := { writes := true, appends := appends }, creates := true, truncates := !appends }
  let all ← call.operands.foldlM (fun (all : Bool) file => do
    match ← Process.openPath file request with
    | .ok n =>
      let _ ← Process.writeFile n content
      return all
    | .error e =>
      complain call.name (shownPath file ++ ": " ++ e.description)
      return false) true
  emit call.name content
  return statusOf all

end NinjaPlan.Tool
