import NinjaPlan.Posix.Script.Tokens

/-! # Reading commands

Tokens are put together into commands by descent.  The readers of the parts of a command take
the reader of a list of commands as a parameter, and `commands` ties the knot; its fuel bounds
the depth of nesting and is never used up, for every level reads a character. -/

namespace NinjaPlan.Script
namespace Reading

def expect (list : ListReader) (k : Keyword) : Reading Unit := do
  match ← token list with
  | .keyword found => if found = k then return else unexpected (some (Token.keyword k).name)
  | _ => unexpected (some (Token.keyword k).name)

/-- The outlook where a command begins after an operator. -/
def afterOperator : Outlook := { skipsLines := true, keywords := true, aliases := true }

/-- Reads a list of commands that must hold one.  It holds none only if the script ends, and then
what must follow the list is missing too. -/
def block (list : ListReader) : Reading Command := return (← list .block).getD default

/-! ### Simple commands -/

/-- Reads the word behind the sign of a redirection. -/
def redirectWord (list : ListReader) (descriptor : Nat) (sign : RedirectSign) :
    Reading Redirect := do
  match sign with
  | .document _ => lookOut { delimiter := true }
  | _ => pure ()
  match ← token list with
  | .word w =>
    match sign with
    | .file mode => return .mk descriptor (.file mode w)
    | .descriptor => return .mk descriptor (.descriptor w)
    | .document stripTabs =>
      let r ← get
      let d : Announced := ⟨r.nextDocument, unquotedText w, hasQuotes w, stripTabs⟩
      set { r with announced := r.announced ++ [d], nextDocument := r.nextDocument + 1 }
      return .mk descriptor (.document d.number)
  | _ => unexpected none

/-- Reads the redirections behind a command, after those in `found`, last first. -/
def redirectsAfter (list : ListReader) : Nat → List Redirect → Reading (List Redirect)
  | 0, found => return found.reverse
  | fuel + 1, found => do
    match ← token list with
    | .redirect descriptor sign =>
      redirectsAfter list fuel ((← redirectWord list descriptor sign) :: found)
    | _ =>
      unread
      return found.reverse

/-- The utilities whose names no function can have. -/
def reservedNames : List Text :=
  [".", ":", "break", "continue", "eval", "exec", "exit", "export", "readonly", "return", "set",
    "shift", "times", "trap", "unset"].map String.toList

/-- A simple command on the way: its parts, last first. -/
structure Draft where
  assignments : List (Text × Word) := []
  words : List Word := []
  redirects : List Redirect := []

/-- Reads a simple command or the definition of a function. -/
def simpleFrom (list : ListReader) (command : Reading Command) (line : Nat) :
    Nat → Draft → Reading Command
  | 0, _ => fault []
  | fuel + 1, d => do
    let finish : Reading Command := do
      unread
      return .simple line d.assignments.reverse d.words.reverse d.redirects.reverse
    lookOut { aliases := d.words.isEmpty }
    match ← token list with
    | .word w =>
      match (if d.words.isEmpty then assignment? w else none) with
      | some a => simpleFrom list command line fuel { d with assignments := a :: d.assignments }
      | none => simpleFrom list command line fuel { d with words := w :: d.words }
    | .redirect descriptor sign =>
      let redirect ← redirectWord list descriptor sign
      simpleFrom list command line fuel { d with redirects := redirect :: d.redirects }
    | .leftParen =>
      match d with
      | ⟨[], [w], []⟩ =>
        match ← token list with
        | .rightParen => pure ()
        | _ => unexpected (some Token.rightParen.name)
        match plainText? w with
        | none => fault "Bad function name"
        | some name =>
          if !isName name || reservedNames.contains name then fault "Bad function name"
          lookOut afterOperator
          let line := (← get).line
          return .define line name (← command)
      | _ => finish
    | _ => finish

/-! ### Compound commands -/

/-- Reads what follows the test of a choice. -/
def choiceFrom (list : ListReader) : Nat → Reading Command
  | 0 => fault []
  | fuel + 1 => do
    let test ← block list
    expect list .then
    let yes ← block list
    match ← token list with
    | .keyword .elif => return .choice test yes (some (← choiceFrom list fuel))
    | .keyword .else => return .choice test yes (some (← block list))
    | _ =>
      unread
      return .choice test yes none

def allArguments : Word := [.double [.parameter "@" .value []]]

/-- Reads words up to another token, which is the last one. -/
def wordsFrom (list : ListReader) : Nat → List Word → Reading (List Word)
  | 0, found => return found.reverse
  | fuel + 1, found => do
    match ← token list with
    | .word w => wordsFrom list fuel (w :: found)
    | _ => return found.reverse

/-- Reads a loop over words, behind its keyword. -/
def eachFrom (list : ListReader) (line : Nat) : Reading Command := do
  let name ← match ← token list with
    | .word w =>
      match plainText? w with
      | some name => if isName name then pure name else fault "Bad for loop variable"
      | none => fault "Bad for loop variable"
    | _ => fault "Bad for loop variable"
  lookOut afterOperator
  let words ← match ← token list with
    | .keyword .in =>
      let words ← wordsFrom list (fuelFor (← get)) []
      match ← lastToken with
      | .newline | .semicolon => pure words
      | _ => unexpected none
    | .semicolon => pure [allArguments]
    | _ =>
      unread
      pure [allArguments]
  lookOut afterOperator
  expect list .do
  return .forEach line name words (← block list)

def lastWord : Reading Word := do
  match ← lastToken with
  | .word w => return w
  | .keyword k => return k.text.map .char
  | _ => return []

def patternsFrom (list : ListReader) : Nat → List Word → Reading (List Word)
  | 0, found => return found.reverse
  | fuel + 1, found => do
    let found := (← lastWord) :: found
    match ← token list with
    | .bar =>
      let _ ← token list
      patternsFrom list fuel found
    | .rightParen => return found.reverse
    | _ => unexpected (some Token.rightParen.name)

/-- The outlook where an arm may begin. -/
def beforeArm : Outlook := { skipsLines := true, keywords := true }

/-- Reads the arms of a selection and the keyword behind them. -/
def armsFrom (list : ListReader) :
    Nat → List (List Word × Option Command) → Reading (List (List Word × Option Command))
  | 0, _ => fault []
  | fuel + 1, found => do
    lookOut beforeArm
    match ← token list with
    | .keyword .esac => return found.reverse
    | t =>
      match t with
      | .leftParen => let _ ← token list
      | _ => pure ()
      let patterns ← patternsFrom list (fuelFor (← get)) []
      let body ← list .optional
      let found := (patterns, body) :: found
      lookOut beforeArm
      match ← token list with
      | .keyword .esac => return found.reverse
      | .doubleSemicolon => armsFrom list fuel found
      | _ => unexpected (some Token.doubleSemicolon.name)

/-- Reads a selection, behind its keyword. -/
def selectionFrom (list : ListReader) (line : Nat) : Reading Command := do
  let subject ← match ← token list with
    | .word w => pure w
    | _ => unexpected (some (Token.word []).name)
  lookOut afterOperator
  expect list .in
  return .select line subject (← armsFrom list (fuelFor (← get)) [])

/-- Puts redirections on a compound command. -/
def redirectAll (line : Nat) (body : Command) (redirects : List Redirect) : Command :=
  match body, redirects with
  | _, [] => body
  | .subshell subshellLine inner _, _ => .subshell subshellLine inner redirects
  | _, _ => .redirected line body redirects

def loopFrom (list : ListReader) (whileFalse : Bool) : Reading Command := do
  let test ← block list
  expect list .do
  return .loop whileFalse test (← block list)

/-- Reads a command, given the reader of commands inside it. -/
def commandStep (list : ListReader) (command : Reading Command) : Reading Command := do
  let line := (← get).line
  let closed (body : Reading Command) (k : Keyword) : Reading Command := do
    let c ← body
    expect list k
    return c
  let body ← match ← token list with
    | .word _ | .redirect .. =>
      unread
      let r ← get
      return ← simpleFrom list command r.line (fuelFor r) {}
    | .keyword .if => closed (do choiceFrom list (fuelFor (← get))) .fi
    | .keyword .while => closed (loopFrom list false) .done
    | .keyword .until => closed (loopFrom list true) .done
    | .keyword .for => closed (eachFrom list line) .done
    | .keyword .case => selectionFrom list line
    | .keyword .open => closed (block list) .close
    | .leftParen =>
      let c ← block list
      match ← token list with
      | .rightParen => pure (.subshell line c [])
      | _ => unexpected (some Token.rightParen.name)
    | _ => unexpected none
  lookOut { keywords := true, aliases := true }
  let redirects ← redirectsAfter list (fuelFor (← get)) []
  return redirectAll line body redirects

/-- Reads a command; the fuel bounds the depth of functions defined in functions. -/
def command (list : ListReader) : Nat → Reading Command
  | 0 => fault []
  | fuel + 1 => commandStep list (command list fuel)

/-! ### Lists of commands -/

def pipelineFrom (list : ListReader) : Nat → List Command → Reading (List Command)
  | 0, found => return found.reverse
  | fuel + 1, found => do
    match ← token list with
    | .bar =>
      lookOut afterOperator
      let c ← command list (fuelFor (← get))
      pipelineFrom list fuel (c :: found)
    | _ =>
      unread
      return found.reverse

def pipeline (list : ListReader) : Reading Command := do
  let negated ← match ← token list with
    | .keyword .bang =>
      lookOut { keywords := true, aliases := true }
      pure true
    | _ =>
      unread
      pure false
  let first ← command list (fuelFor (← get))
  let body ← match ← pipelineFrom list (fuelFor (← get)) [first] with
    | [c] => pure c
    | commands => pure (.pipeline commands false)
  return if negated then .negation body else body

/-- Reads the further pipelines of a chain. -/
def chainFrom (list : ListReader) : Nat → Command → Reading Command
  | 0, first => return first
  | fuel + 1, first => do
    match ← token list with
    | .both =>
      lookOut afterOperator
      let second ← pipeline list
      chainFrom list fuel (.conjunction first second)
    | .either =>
      lookOut afterOperator
      let second ← pipeline list
      chainFrom list fuel (.disjunction first second)
    | _ =>
      unread
      return first

/-- Reads pipelines that are chained by what becomes of them. -/
def chain (list : ListReader) : Reading Command := do
  let first ← pipeline list
  chainFrom list (fuelFor (← get)) first

def inBackground : Command → Command
  | .pipeline commands _ => .pipeline commands true
  | .redirected line body redirects => .background line body redirects
  | c => .background 0 c []

/-- Puts a command behind those read before. -/
def append (before : Option Command) (c : Command) : Command :=
  match before with
  | none => c
  | some b => .sequence b c

/-- Reads a list of commands after those in `before`. -/
def listFrom (list : ListReader) (kind : ListKind) : Nat → Option Command →
    Reading (Option Command)
  | 0, _ => fault []
  | fuel + 1, before => do
    let atEnd : Reading (Option Command) := do
      pendingDocuments list
      modify fun r => { r with unread := true, token := .endOfFile }
      return before
    lookOut { skipsLines := kind != .line, keywords := true, aliases := true }
    let t ← token list
    match t with
    | .newline =>
      pendingDocuments list
      return before
    | .endOfFile => atEnd
    | _ =>
      unread
      let mayEnd := kind == .optional || (kind == .block && before.isSome)
      if mayEnd && t.endsList then return before
      let c ← chain list
      match ← token list with
      | .ampersand => listFrom list kind fuel (some (append before (inBackground c)))
      | .semicolon => listFrom list kind fuel (some (append before c))
      | .newline =>
        unread
        listFrom list kind fuel (some (append before c))
      | .endOfFile =>
        let _ ← atEnd
        return some (append before c)
      | _ =>
        if kind = .line then unexpected none
        unread
        return some (append before c)

/-- Reads lists of commands; the fuel bounds the depth of nesting. -/
def commands : Nat → ListReader
  | 0, _ => fault []
  | fuel + 1, kind => do listFrom (commands fuel) kind (fuelFor (← get)) none

end Reading

/-- What a reader finds next in a script. -/
inductive NextCommand where
  | nothing
  /-- A line without a command. -/
  | blank (after : Reader)
  | command (c : Command) (after : Reader)

def Reader.ofScript (script : Text) : Reader := { rest := script.filter (· != '\x00') }

def Reader.nextCommand (r : Reader) : Except SyntaxFault NextCommand := do
  let r := { r with unread := false, outlook := {}, announced := [] }
  let (found, after) ← (Reading.commands (Reading.fuelFor r) .line).run r
  return match found with
  | some c => .command c after
  | none =>
    match after.token, after.unread with
    | .endOfFile, true => .nothing
    | _, _ => .blank after

end NinjaPlan.Script
