import NinjaPlan.Posix.Text.Format
import NinjaPlan.Posix.Tool.Edit.Basic

/-! # Reading scripts of the editor

A script is read octet by octet, and the number of octets that have been taken tells where it is
wrong. -/

namespace NinjaPlan.Tool.Edit

/-- What has been taken of a script, and what is left. -/
structure Cursor where
  taken : Nat := 0
  /-- The number of line breaks that have been taken. -/
  breaks : Nat := 0
  rest : Text

abbrev Reading := ExceptT Text (StateM Cursor)

def wrong {α : Type} (message : Text) : Reading α := throw message

/-- Takes the next octet. -/
def next? : Reading (Option Char) := do
  let cursor ← get
  match cursor.rest with
  | [] => return none
  | c :: rest =>
    set (Cursor.mk (cursor.taken + 1) (cursor.breaks + if c = '\n' then 1 else 0) rest)
    return some c

def giveBack (c? : Option Char) : Reading Unit :=
  match c? with
  | none => pure ()
  | some c => modify fun cursor =>
    ⟨cursor.taken - 1, cursor.breaks - (if c = '\n' then 1 else 0), c :: cursor.rest⟩

/-- The next octet, which stays. -/
def peek? : Reading (Option Char) := return (← get).rest.head?

/-- Takes octets as long as they are wanted. -/
def takeRun (isWanted : Char → Bool) : Reading Text := do
  let cursor ← get
  let run := cursor.rest.takeWhile isWanted
  set (Cursor.mk (cursor.taken + run.length) (cursor.breaks + run.count '\n')
    (cursor.rest.drop run.length))
  return run

def isBlank (c : Char) : Bool := c == ' ' || c == '\t'

def nextVisible? : Reading (Option Char) := do
  let _ ← takeRun isBlank
  next?

/-- Takes a number; without digits it is zero. -/
def readNumber : Reading Nat := return Number.ofDigits 10 (← takeRun Char.isDigit)

/-- Takes the end of a command. -/
def readEnd : Reading Unit := do
  let c? ← nextVisible?
  match c? with
  | none | some '\n' | some ';' => pure ()
  | some '\x7d' | some '#' => giveBack c?
  | some _ => wrong "extra characters after command"

/-! ### Parts between delimiters -/

/-- Takes the members of a set of octets, up to the bracket that closes it, which cannot be the
first; the number bounds how many there are. -/
def readSet : Nat → Bool → Reading (Option Text)
  | 0, _ => return none
  | fuel + 1, isFirst => do
    let go (s : Text) : Reading (Option Text) := return (← readSet fuel false).map (s ++ ·)
    let c? ← next?
    match c?, ← peek? with
    | none, _ => return none
    | some '\n', _ =>
      giveBack c?
      return none
    | some ']', _ => if isFirst then go [']'] else return some [']']
    | some '\\', some 'n' =>
      let _ ← next?
      go ['\n']
    | some '[', some k =>
      if k = ':' ∨ k = '.' ∨ k = '=' then
        let inner ← takeRun (· != ']')
        let closing ← next?
        go ('[' :: inner ++ closing.toList)
      else go ['[']
    | some c, _ => go [c]

/-- Takes what comes before a delimiter, and the delimiter; the number bounds how many octets
there are.  In a pattern a delimiter may be a member of a set. -/
def readDelimited (delimiter : Char) (isPattern : Bool) : Nat → Reading (Option Text)
  | 0 => return none
  | fuel + 1 => do
    let go (s : Text) : Reading (Option Text) :=
      return (← readDelimited delimiter isPattern fuel).map (s ++ ·)
    let c? ← next?
    match c? with
    | none => return none
    | some '\n' =>
      giveBack c?
      return none
    | some c =>
      if c = delimiter then return some []
      else if c = '\\' then
        match ← next? with
        | none => return none
        | some d =>
          if d = '\n' ∨ (d = 'n' ∧ isPattern) then go ['\n']
          else if d = delimiter ∧ (isPattern ∨ d ≠ '&') then go [d]
          else go ['\\', d]
      else if c = '[' ∧ isPattern then
        let negation ← if (← peek?) = some '^' then (return (← next?).toList) else pure []
        match ← readSet (fuel + 1) true with
        | none => return none
        | some s => go ('[' :: negation ++ s)
      else go [c]

/-- Takes what comes before a delimiter, or says what is not ended. -/
def readUpTo (delimiter : Char) (isPattern : Bool) (unended : Text) : Reading Text := do
  match ← readDelimited delimiter isPattern ((← get).rest.length + 1) with
  | some s => return s
  | none => wrong unended

/-! ### Escapes -/

/-- The octet that is spelled behind a backslash, and what follows it. -/
def octetAt? (s : Text) : Option (Char × Text) :=
  let number (base count : Nat) (rest : Text) : Option (Char × Text) :=
    match Escape.digits base count rest with
    | [] => none
    | digits => some (Escape.octet (Number.ofDigits base digits), rest.drop digits.length)
  match s with
  | 'd' :: rest => number 10 3 rest
  | 'o' :: rest => number 8 3 rest
  | 'x' :: rest => number 16 2 rest
  | 'c' :: c :: rest => some (Char.ofNat (c.toUpper.toNat ^^^ 0x40), rest)
  | c :: rest =>
    if "afnrtv".toList.contains c then (Escape.letters.lookup c).map fun octet => (octet, rest)
    else none
  | [] => none

/-- The text of a pattern with the octets that are spelled in it; the number bounds how many
there are. -/
def patternText : Nat → Text → Text
  | 0, s => s
  | fuel + 1, s =>
    match s with
    | [] => []
    | '\\' :: rest =>
      match octetAt? rest with
      | some (c, rest) =>
        let isSign := "$*.[\\]^".toList.contains c
        (if isSign then ['\\', c] else [c]) ++ patternText fuel rest
      | none => '\\' :: rest.take 1 ++ patternText fuel (rest.drop 1)
    | c :: rest => c :: patternText fuel rest

/-- The parts of what is put in place of a match; the number bounds how many there are. -/
def partsFrom : Nat → Text → List Part
  | 0, _ => []
  | fuel + 1, s =>
    match s with
    | [] => []
    | '&' :: rest => .group 0 :: partsFrom fuel rest
    | '\\' :: c :: rest =>
      let (part, rest) : Part × Text := match c with
        | 'U' => (.casing .upper, rest)
        | 'L' => (.casing .lower, rest)
        | 'E' => (.casing .plain, rest)
        | 'u' => (.casing .nextUpper, rest)
        | 'l' => (.casing .nextLower, rest)
        | _ =>
          if c.isDigit then (.group (c.toNat - '0'.toNat), rest)
          else
            match octetAt? (c :: rest) with
            | some (octet, rest) => (.text [octet], rest)
            | none => (.text [c], rest)
      part :: partsFrom fuel rest
    | c :: rest => .text [c] :: partsFrom fuel rest

/-- The greatest group that some parts ask for. -/
def greatestGroup (parts : List Part) : Nat := parts.foldl (fun n part => match part with
  | .group k => max n k
  | _ => n) 0

/-- A text with the octets that are spelled in it, any other octet behind a backslash standing for
itself; the number bounds how many there are. -/
def plainFrom : Nat → Text → Text
  | 0, _ => []
  | fuel + 1, s =>
    match s with
    | [] | ['\\'] => []
    | '\\' :: c :: rest =>
      match octetAt? (c :: rest) with
      | some (octet, rest) => octet :: plainFrom fuel rest
      | none => c :: plainFrom fuel rest
    | c :: rest => c :: plainFrom fuel rest

/-- A text with the octets that are spelled in it. -/
def plain (s : Text) : Text := plainFrom (s.length + 1) s

/-- Takes a text of lines, all of which but the last end in a backslash. -/
def readLines : Nat → Reading Text
  | 0 => return []
  | fuel + 1 => do
    match ← next? with
    | none | some '\n' => return []
    | some '\\' =>
      match ← next? with
      | none => return []
      | some d => return '\\' :: d :: (← readLines fuel)
    | some c => return c :: (← readLines fuel)

/-- Takes the text of a command. -/
def readText : Reading Text := do
  let c? ← nextVisible?
  match c? with
  | none => wrong "expected \\ after `a', `c' or `i'"
  | some '\\' =>
    let rest := (← get).rest
    if rest.isEmpty then return []
    let behind := rest.dropWhile isBlank
    if behind.head? = some '\n' then
      let _ ← takeRun isBlank
      let _ ← next?
  | some _ => giveBack c?
  return plain (← readLines ((← get).rest.length + 1)) ++ ['\n']

/-! ### Patterns -/

/-- The regular expression of a text, with the number of its groups; the last one that was used
if the text is empty. -/
def readPattern (style : Regex.Style) (s : Text) : Reading (Option Regex × Option Nat) := do
  if s.isEmpty then
    if style.folds || style.lines then wrong "cannot specify modifiers on empty regexp"
    return (none, none)
  match Regex.parse style (patternText (s.length + 1) s) with
  | .ok (r, groups) => return (some r, some groups)
  | .error message => wrong message

/-- Takes the letters behind the pattern of an address; the number bounds how many there are. -/
def readPatternLetters (style : Regex.Style) : Nat → Reading Regex.Style
  | 0 => return style
  | fuel + 1 => do
    let c? ← nextVisible?
    match c? with
    | some 'I' => readPatternLetters { style with folds := true } fuel
    | some 'M' => readPatternLetters { style with lines := true } fuel
    | _ =>
      giveBack c?
      return style

/-! ### Choices -/

/-- Takes an address that begins with an octet, if it begins one. -/
def readAddress (style : Regex.Style) (c? : Option Char) : Reading (Option Bound) := do
  let pattern (delimiter : Char) : Reading (Option Bound) := do
    let s ← readUpTo delimiter true "unterminated address regex"
    let style ← readPatternLetters style ((← get).rest.length + 1)
    return some (.address (.pattern (← readPattern style s).1))
  match c? with
  | some '/' => pattern '/'
  | some '\\' =>
    match ← next? with
    | some delimiter => pattern delimiter
    | none => wrong "unterminated address regex"
  | some '$' => return some (.address .last)
  | some '+' =>
    let _ ← takeRun isBlank
    return some (.further (← readNumber))
  | some '~' =>
    let _ ← takeRun isBlank
    return some (.multiple (← readNumber))
  | some c =>
    if !c.isDigit then return none
    giveBack c?
    let n ← readNumber
    let _ ← takeRun isBlank
    if (← peek?) = some '~' then
      let _ ← next?
      let _ ← takeRun isBlank
      let step ← readNumber
      return some (.address (if step = 0 then .line n else .every step n))
    else return some (.address (.line n))
  | none => return none

/-- Takes the lines that a command is for, and the octet behind them, given the first octet. -/
def readChoice (style : Regex.Style) (c? : Option Char) : Reading (Choice × Option Char) := do
  let (choice, c?) ← (do
    match ← readAddress style c? with
    | none => return (Choice.mk none none false, c?)
    | some (.further _) | some (.multiple _) =>
      wrong "invalid usage of +N or ~N as first address"
    | some (.address first) =>
      let c? ← nextVisible?
      let (bound, c?) ← if c? = some ',' then
          match ← readAddress style (← nextVisible?) with
          | none => wrong "unexpected `,'"
          | some bound => pure (some bound, ← nextVisible?)
        else pure (none, c?)
      match first, bound with
      | .line 0, some (.address (.pattern _)) => pure ()
      | .line 0, _ => wrong "invalid usage of line address 0"
      | _, _ => pure ()
      return (Choice.mk (some first) bound false, c?) : Reading (Choice × Option Char))
  if c? = some '!' then
    let c? ← nextVisible?
    if c? = some '!' then wrong "multiple `!'s"
    return ({ choice with negated := true }, c?)
  else return (choice, c?)

/-! ### Commands -/

def readFileName : Reading Text := do
  let _ ← takeRun isBlank
  let name ← takeRun (· != '\n')
  if name.isEmpty then wrong "missing filename in r/R/w/W commands"
  return name

/-- Takes the options of a substitution; the number bounds how many there are. -/
def readOptions (style : Regex.Style) (numbered : Bool) (s : Substitution) :
    Nat → Reading (Regex.Style × Substitution)
  | 0 => return (style, s)
  | fuel + 1 => do
    let c? ← next?
    match c? with
    | none | some '\n' | some ';' => return (style, s)
    | some '\x7d' | some '#' =>
      giveBack c?
      return (style, s)
    | some ' ' | some '\t' => readOptions style numbered s fuel
    | some 'i' | some 'I' => readOptions { style with folds := true } numbered s fuel
    | some 'm' | some 'M' => readOptions { style with lines := true } numbered s fuel
    | some 'g' =>
      if s.all then wrong "multiple `g' options to `s' command"
      readOptions style numbered { s with all := true } fuel
    | some 'p' =>
      if s.prints then wrong "multiple `p' options to `s' command"
      readOptions style numbered { s with prints := true } fuel
    | some 'w' => return (style, { s with file := some (← readFileName) })
    | some c =>
      if !c.isDigit then wrong "unknown option to `s'"
      if numbered then wrong "multiple number options to `s' command"
      giveBack c?
      let n ← readNumber
      if n = 0 then wrong "number option to `s' command may not be zero"
      readOptions style true { s with number := n } fuel

def readSubstitution (style : Regex.Style) : Reading Action := do
  let unended : Text := "unterminated `s' command"
  match ← next? with
  | none => wrong unended
  | some delimiter =>
    let pattern ← readUpTo delimiter true unended
    let replacement ← readUpTo delimiter false unended
    let parts := partsFrom (replacement.length + 1) replacement
    let (style, s) ← readOptions style false ⟨none, parts, 1, false, false, none⟩
      ((← get).rest.length + 1)
    let (r, groups?) ← readPattern style pattern
    let greatest := greatestGroup parts
    if groups?.any (· < greatest) then
      wrong ("invalid reference \\" ++ Text.ofNat greatest ++ " on `s' command's RHS")
    return .substitute { s with pattern := r }

/-- Takes a translation of octets. -/
def readTranslation : Reading Action := do
  let unended : Text := "unterminated `y' command"
  match ← next? with
  | none => wrong unended
  | some delimiter =>
    let olds := plain (← readUpTo delimiter false unended)
    let news := plain (← readUpTo delimiter false unended)
    if olds.length ≠ news.length then wrong "strings for `y' command are different lengths"
    readEnd
    return .translate (olds.zip news)

/-- Takes a number behind a command, if there is one, and the end of the command. -/
def readArgument : Reading (Option Nat) := do
  let _ ← takeRun isBlank
  let n? ← if (← peek?).any Char.isDigit then (return some (← readNumber)) else pure none
  readEnd
  return n?

/-- Takes a label that is jumped to. -/
def readTarget : Reading Text := do
  let _ ← takeRun isBlank
  takeRun fun c => !Number.isSpace c && c != ';' && c != '\x7d'

/-- The commands that are only a letter. -/
def letterActions : List (Char × Action) := [
  ('=', .showNumber), ('d', .delete), ('D', .deleteFirst), ('F', .showName), ('g', .recall),
  ('G', .recallMore), ('h', .hold), ('H', .holdMore), ('n', .next), ('N', .join), ('p', .print),
  ('P', .printFirst), ('x', .swap), ('z', .clear)]

/-- Takes what a command does, given its letter. -/
def readAction (style : Regex.Style) (choice : Choice) (c : Char) : Reading Action := do
  match letterActions.lookup c with
  | some action =>
    readEnd
    return action
  | none =>
    match c with
    | '\x7b' => return .opening
    | 's' => readSubstitution style
    | 'y' => readTranslation
    | 'a' => return .append (← readText)
    | 'i' => return .insert (← readText)
    | 'c' => return .change (← readText)
    | 'r' => return .readFile (← readFileName)
    | 'w' => return .writeFile (← readFileName) false
    | 'W' => return .writeFile (← readFileName) true
    | 'b' => return .jump (← readTarget)
    | 't' => return .jumpIfReplaced (← readTarget)
    | 'T' => return .jumpUnlessReplaced (← readTarget)
    | 'l' => return .showPlainly (← readArgument)
    | 'v' =>
      let _ ← readTarget
      return .nothing
    | ':' =>
      if choice.first.isSome then wrong ": doesn't want any addresses"
      let _ ← takeRun isBlank
      let name ← takeRun fun c => !Number.isSpace c && c != ';'
      if name.isEmpty then wrong "\":\" lacks a label"
      return .label name
    | 'q' | 'Q' =>
      if choice.bound.isSome then wrong "command only uses one address"
      return .quit ((← readArgument).getD 0) (c == 'q')
    | _ => wrong ("unknown command: `" ++ [c] ++ "'")

/-- Takes commands, given how many blocks have begun; the number bounds how many commands there
are. -/
def readCommands (style : Regex.Style) : Nat → Nat → Reading (Script × Nat)
  | 0, depth => return ([], depth)
  | fuel + 1, depth => do
    let _ ← takeRun fun c => c == ';' || Number.isSpace c
    let c? ← next?
    if c?.isNone then return ([], depth)
    let (choice, c?) ← readChoice style c?
    match c? with
    | none => wrong "missing command"
    | some '#' =>
      if choice.first.isSome then wrong "comments don't accept any addresses"
      let _ ← takeRun (· != '\n')
      readCommands style fuel depth
    | some '\x7d' =>
      if depth = 0 then wrong "unexpected `\x7d'"
      if choice.first.isSome then wrong "`\x7d' doesn't want any addresses"
      readEnd
      let (script, depth) ← readCommands style fuel (depth - 1)
      return (⟨choice, .closing⟩ :: script, depth)
    | some c =>
      let action ← readAction style choice c
      let depth := match action with
        | .opening => depth + 1
        | _ => depth
      let (script, depth) ← readCommands style fuel depth
      return (⟨choice, action⟩ :: script, depth)

/-- Whether a script asks in its first line that lines are not printed. -/
def isQuiet (s : Text) : Bool :=
  match s with
  | '#' :: 'n' :: rest => rest.head?.all (· == '\n')
  | _ => false

/-- The script that a text spells behind others, given how many blocks have begun. -/
def read (style : Regex.Style) (s : Text) (depth : Nat) : Except Text (Script × Nat) × Cursor :=
  (readCommands style (s.length + 1) depth).run ⟨0, 0, s⟩

end NinjaPlan.Tool.Edit
