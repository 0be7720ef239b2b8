import NinjaPlan.Posix.Script.Scan

/-! # Reading tokens

A token is a word, an operator, a line break or the end of the script.  What a word means is
decided when it is read: it is a keyword only where a command may begin, and an alias is put in
there as well.  The documents that a line announces begin behind the line, and are read when its
end is.

The reader of lists of commands, for the commands inside words, is a parameter. -/

namespace NinjaPlan.Script
namespace Reading

/-- How a list of commands begins and ends. -/
inductive ListKind where
  /-- A line of a script. -/
  | line
  /-- At least one command, over any number of lines. -/
  | block
  /-- Perhaps no command at all, over any number of lines. -/
  | optional
deriving DecidableEq

abbrev ListReader := ListKind → Reading (Option Command)

/-! ### Words -/

/-- The fuel for reading what is left of a script. -/
def fuelFor (r : Reader) : Nat :=
  8 * (r.rest.length + r.aliases.foldl (fun sum a => sum + a.2.length) 0 + 64)

/-- Reads the commands of a substitution, up to its parenthesis. -/
def substituted (list : ListReader) : Reading (Option Command) := do
  let outer ← get
  set { outer with announced := [], outlook := {}, unread := false }
  let body ← list .optional
  modify fun r => { r with unread := false }
  match ← lastToken with
  | .rightParen => pure ()
  | _ => unexpected (some Token.rightParen.name)
  modify fun r => { r with announced := outer.announced, outlook := outer.outlook }
  return body

/-- Reads a text of commands, whose lines are counted from one. -/
def substitutedText (list : ListReader) (text : Text) : Reading (Option Command) := do
  let outer ← get
  set { outer with
    rest := text, line := 1, announced := [], outlook := {}, unread := false, openAliases := [] }
  let body ← list .optional
  modify fun r => { outer with documents := r.documents, nextDocument := r.nextDocument }
  return body

def partsIn (list : ListReader) (p : Place) : Reading Word := do
  parts (substituted list) (substitutedText list) (fuelFor (← get)) p 0 []

/-- Goes on behind a comment. -/
def skipComment : Nat → Reading Unit
  | 0 => return
  | fuel + 1 => do
    match (← get).rest with
    | [] | '\n' :: _ => return
    | _ =>
      skip
      skipComment fuel

/-- The sign of the redirection that begins with a character, which has been read. -/
def redirectSign (c : Char) : Reading RedirectSign := do
  if c = '>' then
    if ← accept '>' then return .file .append
    else if ← accept '|' then return .file .overwrite
    else if ← accept '&' then return .descriptor
    else return .file .write
  else if ← accept '<' then return .document (← accept '-')
  else if ← accept '&' then return .descriptor
  else if ← accept '>' then return .file .readWrite
  else return .file .read

/-- The token that a word is, which may be the number of a redirection. -/
def wordToken (w : Word) : Reading Token := do
  let numbered (c : Char) : Option Nat :=
    match w with
    | [] => some (if c = '>' then 1 else 0)
    | [.char d] => if d.isDigit then some (d.toNat - '0'.toNat) else none
    | _ => none
  match (← get).rest with
  | c :: _ =>
    if c = '<' ∨ c = '>' then
      match numbered c with
      | some n =>
        skip
        return .redirect n (← redirectSign c)
      | none => return .word w
    else return .word w
  | [] => return .word w

/-- Reads a token, whatever the reader looks out for. -/
def rawToken (list : ListReader) : Nat → Reading Token
  | 0 => fault []
  | fuel + 1 => do
    match ← peek with
    | none => return .endOfFile
    | some c =>
      let sign (single double : Token) : Reading Token := do
        skip
        if ← accept c then return double else return single
      match c with
      | ' ' | '\t' =>
        skip
        rawToken list fuel
      | '#' =>
        skipComment (← get).rest.length
        rawToken list fuel
      | '\n' =>
        skip
        return .newline
      | '&' => sign .ampersand .both
      | '|' => sign .bar .either
      | ';' => sign .semicolon .doubleSemicolon
      | '(' =>
        skip
        return .leftParen
      | ')' =>
        skip
        return .rightParen
      | _ => wordToken (← partsIn list { quoting := .plain, closer := .wordEnd })

def someToken (list : ListReader) : Reading Token := do
  let r ← get
  if r.unread then
    set { r with unread := false }
    return r.token
  else
    let t ← rawToken list (fuelFor r)
    modify fun r => { r with token := t }
    return t

def document (list : ListReader) (d : Announced) : Reading Word := do
  if d.verbatim then
    if ← atDelimiter d then return []
    else return [.single (← verbatimLines d ((← get).rest.length + 1) [])]
  else
    join
    if ← atDelimiter d then return []
    else
      return [.double (← partsIn list
        { quoting := .double, closer := .delimiter, document := some d })]

/-- Reads the announced documents, which begin here. -/
def documentsIn (list : ListReader) : List Announced → Reading Unit
  | [] => return
  | d :: rest => do
    let w ← document list d
    modify fun r => { r with documents := (d.number, w) :: r.documents }
    documentsIn list rest

/-- Reads the documents announced in the line that has ended. -/
def pendingDocuments (list : ListReader) : Reading Unit := do
  let announced := (← get).announced
  modify fun r => { r with announced := [] }
  documentsIn list announced

/-- Goes on behind line breaks; the token after them is the last one. -/
def skipNewlines (list : ListReader) : Nat → Token → Reading Token
  | 0, t => return t
  | fuel + 1, t =>
    match t with
    | .newline => do
      pendingDocuments list
      lookOut {}
      skipNewlines list fuel (← someToken list)
    | _ => return t

/-- Puts the text of an alias in the place of its name, which has been read. -/
def openAlias (name text : Text) : Reading Unit := modify fun r =>
  { r with
    rest := text ++ r.rest
    openAliases := ⟨name, r.rest.length⟩ :: r.openAliases }

/-- The text of an alias that may be put in where the reader stands. -/
def aliasText? (name : Text) : Reading (Option Text) := do
  let r ← get
  match r.aliases.lookup name with
  | none => return none
  | some text =>
    let length := r.rest.length
    let isOpen := r.openAliases.any fun a => a.name == name && a.behind < length
    return if isOpen then none else some text

/-- Reads a token as the reader looks out for it. -/
def tokenWith (list : ListReader) : Nat → Outlook → Reading Token
  | 0, _ => fault []
  | fuel + 1, wanted => do
    let t ← someToken list
    let t ← if wanted.skipsLines then skipNewlines list (fuelFor (← get)) t else pure t
    lookOut {}
    match t with
    | .word w =>
      match plainText? w with
      | none => return t
      | some text =>
        match (if wanted.keywords then Keyword.ofText? text else none) with
        | some k =>
          modify fun r => { r with token := .keyword k }
          return .keyword k
        | none =>
          if !wanted.aliases then return t
          match ← aliasText? text with
          | none => return t
          | some replacement =>
            openAlias text replacement
            tokenWith list fuel wanted
    | _ => return t

def token (list : ListReader) : Reading Token := do
  let r ← get
  tokenWith list (fuelFor r) r.outlook

end Reading
end NinjaPlan.Script
