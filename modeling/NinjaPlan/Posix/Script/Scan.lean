import NinjaPlan.Posix.Script.Reader

/-! # Reading words

A word ends at a blank, a line break or an operator that nothing protects.  Inside it, quotes,
braces and parentheses nest; `parts` reads up to what closes the place where it is, and tells
apart how characters are taken there:

* in plain text, quotes and backslashes protect, and braces after a `$` close;
* in double quotes, and in documents, only a few characters keep their meaning;
* in expressions, parentheses are counted.

How commands inside a word are read is a parameter. -/

namespace NinjaPlan.Script

/-- How characters are taken. -/
inductive Quoting where
  | plain
  | double
  | expression
deriving DecidableEq

/-- What closes a place inside a word. -/
inductive Closer where
  | wordEnd
  | brace
  | quote
  | parens
  | delimiter
deriving DecidableEq

/-- A place inside a word. -/
structure Place where
  quoting : Quoting
  closer : Closer
  /-- Whether a brace is open that began where characters were first taken in this way. -/
  braced : Bool := false
  /-- The document that the word is, with its delimiter. -/
  document : Option Announced := none

namespace Place

/-- The fault of a script that ends in the place. -/
def unclosed (p : Place) : Text :=
  if p.quoting = .expression then "Missing '))'"
  else if p.quoting = .double ∧ p.document.isNone then "Unterminated quoted string"
  else "Missing '\x7d'"

/-- Whether a backslash in quotes protects a character. -/
def protects (p : Place) (c : Char) : Bool :=
  c == '\\' || c == '\x60' || c == '$' || (c == '\x22' && (p.document.isNone || p.braced)) ||
    (c == '\x7d' && p.braced)

end Place

/-- Whether a character ends a plain word. -/
def endsWord (c : Char) : Bool := "<>();&| \t".toList.contains c

namespace Reading

/-- Reads up to the next single quote. -/
def single (p : Place) : Nat → Text → Reading Text
  | 0, _ => fault []
  | fuel + 1, found => do
    match ← nextRaw with
    | none =>
      fault (if p.document.isNone then "Unterminated quoted string" else "Missing '\x7d'")
    | some '\x27' => return found.reverse
    | some c => single p fuel (c :: found)

/-- How many octets of a text a line begins with. -/
def sharedLength : Text → Text → Nat
  | a :: as, b :: bs => if a = b then sharedLength as bs + 1 else 0
  | _, _ => 0

/-- The text of a line that begins like a delimiter and goes on otherwise.  An octet outside ASCII
that tells them apart is lost. -/
def notDelimiter (delimiter line : Text) : Text :=
  let shared := sharedLength delimiter line
  match line.drop shared with
  | c :: rest => if 0 < shared ∧ 0x80 ≤ c.toNat then line.take shared ++ rest else line
  | [] => line

/-- At the start of a line of a document: whether the line is the delimiter, which is then read. -/
def atDelimiter (d : Announced) : Reading Bool := do
  let rest := (← get).rest
  let tabs := if d.stripTabs then (rest.takeWhile (· == '\t')).length else 0
  let line := rest.drop tabs
  let behind := line.drop d.delimiter.length
  if d.delimiter.isPrefixOf line ∧ (behind = [] ∨ behind.head? = some '\n') then
    modify fun r => { r with rest := behind.drop 1, line := r.line + 1 }
    return true
  else
    modify fun r => { r with rest := notDelimiter d.delimiter line }
    return false

/-- Reads the commands between two backquotes as a text. -/
def backquoted (p : Place) : Nat → Text → Reading Text
  | 0, _ => fault []
  | fuel + 1, found => do
    match ← next with
    | none => fault "EOF in backquote substitution"
    | some '\x60' => return found.reverse
    | some '\\' =>
      match ← nextRaw with
      | none => fault "EOF in backquote substitution"
      | some c =>
        if c = '\\' ∨ c = '\x60' ∨ c = '$' ∨ (p.quoting ≠ .plain ∧ c = '\x22') then
          backquoted p fuel (c :: found)
        else backquoted p fuel (c :: '\\' :: found)
    | some c => backquoted p fuel (c :: found)

/-- Reads a name, a number or a special character after a `$` and perhaps a brace, and what
follows the name in braces.  Line breaks among them do not count as lines. -/
def parameterHead (inBraces : Bool) : Reading (Text × Substitution) := do
  let rest (name : Text) : Reading (Text × Substitution) := do
    if !inBraces then return (name, .value)
    let operator (emptyToo : Bool) : Reading Substitution := do
      let found ← peek
      pass
      match found with
      | some '-' => return .orElse emptyToo
      | some '+' => return .ifSet emptyToo
      | some '?' => return .demand emptyToo
      | some '=' => return .assign emptyToo
      | _ => return .malformed
    match ← peek with
    | some '\x7d' =>
      skip
      return (name, .value)
    | some ':' =>
      skip
      return (name, ← operator true)
    | some '#' =>
      skip
      return (name, .trimStart (← accept '#'))
    | some '%' =>
      skip
      return (name, .trimEnd (← accept '%'))
    | _ => return (name, ← operator false)
  let counted (name : Text) : Reading (Text × Substitution) := do
    return (name, if (← peek) == some '\x7d' then .length else .malformed)
  match ← peek with
  | none => return ([], .malformed)
  | some c =>
    if isNameStart c then rest (← takeRun isNameChar)
    else if c.isDigit then
      if inBraces then rest (← takeRun Char.isDigit)
      else
        skip
        rest [c]
    else if c = '\x7d' then return ([], .malformed)
    else
      pass
      if inBraces ∧ c = '#' then
        match ← peek with
        | none => rest ['#']
        | some d =>
          if isNameStart d then counted (← takeRun isNameChar)
          else if d.isDigit then counted (← takeRun Char.isDigit)
          else
            let before ← get
            pass
            if d ≠ '\x7d' ∧ (← peek) == some '\x7d' then
              if isSpecialName d then return ([d], .length) else return ([d], .malformed)
            else
              set before
              rest ['#']
      else if isSpecialName c then rest [c]
      else return ([], .malformed)

/-- Reads parts of a word in a place up to what closes it.  In an expression, `depth` parentheses
are open; `found` holds the parts read before, last first. -/
def parts (commands : Reading (Option Command))
    (commandText : Text → Reading (Option Command)) :
    Nat → Place → Nat → List Part → Reading (List Part)
  | 0, _, _, _ => fault []
  | fuel + 1, p, depth, found => do
    let again (part : Part) : Reading (List Part) :=
      parts commands commandText fuel p depth (part :: found)
    let inside (p : Place) : Reading (List Part) := parts commands commandText fuel p 0 []
    let atEnd : Reading (List Part) :=
      if p.closer = .wordEnd ∨ p.closer = .delimiter then return found.reverse
      else fault p.unclosed
    match ← peek with
    | none => atEnd
    | some '\n' =>
      if p.closer = .wordEnd then return found.reverse
      skip
      match p.document with
      | none => again (.char '\n')
      | some d =>
        join
        if ← atDelimiter d then
          if p.closer = .delimiter then return (.char '\n' :: found).reverse
          else fault p.unclosed
        else again (.char '\n')
    | some '\\' =>
      skip
      match ← nextRaw with
      | none => again (.escaped '\\')
      | some c =>
        if p.quoting = .plain ∨ p.protects c then again (.escaped c)
        else parts commands commandText fuel p depth (.escaped c :: .escaped '\\' :: found)
    | some '\x27' =>
      skip
      if p.quoting = .plain then again (.single (← single p ((← get).rest.length + 1) []))
      else again (.char '\x27')
    | some '\x22' =>
      skip
      match p.quoting, p.closer with
      | .expression, _ | _, .delimiter => again (.char '\x22')
      | .double, .quote => return found.reverse
      | _, _ =>
        again (.double (← inside { p with quoting := .double, closer := .quote }))
    | some '\x60' =>
      skip
      if (← get).outlook.delimiter then again (.escaped '\x60')
      else
        let text ← backquoted p ((← get).rest.length + 1) []
        again (.command (← commandText text))
    | some '$' =>
      skip
      if (← get).outlook.delimiter then again (.char '$')
      else
        match ← peek with
        | some '(' =>
          skip
          if ← accept '(' then
            again (.arithmetic (← inside { p with
              quoting := .expression, closer := .parens, braced := false }))
          else again (.command (← commands))
        | some c =>
          if c = '\x7b' ∨ isNameStart c ∨ isSpecialName c then
            let inBraces := c == '\x7b'
            if inBraces then skip
            let (name, substitution) ← parameterHead inBraces
            if substitution = .value then again (.parameter name .value [])
            else
              let quoting : Quoting := match substitution with
                | .trimStart _ | .trimEnd _ => .plain
                | _ => if p.quoting = .plain then .plain else .double
              again (.parameter name substitution
                (← inside { p with quoting := quoting, closer := .brace, braced := true }))
          else again (.char '$')
        | none => again (.char '$')
    | some '\x7d' =>
      skip
      if p.closer = .brace then return found.reverse else again (.char '\x7d')
    | some c =>
      if p.closer = .parens ∧ c = '(' then
        skip
        parts commands commandText fuel p (depth + 1) (.char c :: found)
      else if p.closer = .parens ∧ c = ')' then
        skip
        if 0 < depth then parts commands commandText fuel p (depth - 1) (.char c :: found)
        else if ← accept ')' then return found.reverse
        else again (.char c)
      else if p.closer = .wordEnd ∧ endsWord c then return found.reverse
      else
        skip
        again (.char c)

/-- Reads the lines of a document into which nothing is put. -/
def verbatimLines (d : Announced) : Nat → Text → Reading Text
  | 0, found => return found.reverse
  | fuel + 1, found => do
    match ← nextRaw with
    | none => return found.reverse
    | some '\n' =>
      if ← atDelimiter d then return ('\n' :: found).reverse
      else verbatimLines d fuel ('\n' :: found)
    | some c => verbatimLines d fuel (c :: found)

def hasQuotes (w : Word) : Bool :=
  w.any fun part => match part with
    | .escaped _ | .single _ | .double _ => true
    | _ => false

/-- The text of a word into which nothing is put, without its quotes. -/
def unquotedText : Word → Text
  | [] => []
  | .char c :: rest => c :: unquotedText rest
  | .escaped c :: rest => c :: unquotedText rest
  | .single t :: rest => t ++ unquotedText rest
  | .double ps :: rest =>
    (ps.flatMap fun part => match part with
      | .char c | .escaped c => [c]
      | _ => []) ++ unquotedText rest
  | _ :: rest => unquotedText rest

end Reading
end NinjaPlan.Script
