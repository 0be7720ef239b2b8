import NinjaPlan.Posix.Script.Syntax

/-! # Reading a script

The state of a reader of scripts, and the tokens that it finds.  A script is read and run one
command at a time, so that what comes before a fault still runs.

A backslash before a line break joins the lines, wherever single quotes do not protect it. -/

namespace NinjaPlan.Script

/-- The words that have a meaning of their own where a command may begin. -/
inductive Keyword where
  | bang | case | do | done | elif | else | esac | fi | for | if | in | then | until | while
  | open | close
deriving DecidableEq

namespace Keyword

/-- Every keyword. -/
def all : List Keyword :=
  [bang, .case, .do, .done, .elif, .else, .esac, .fi, .for, .if, .in, .then, .until, .while,
    .open, .close]

/-- How a keyword is written. -/
def text : Keyword → Text
  | bang => "!"
  | .case => "case"
  | .do => "do"
  | .done => "done"
  | .elif => "elif"
  | .else => "else"
  | .esac => "esac"
  | .fi => "fi"
  | .for => "for"
  | .if => "if"
  | .in => "in"
  | .then => "then"
  | .until => "until"
  | .while => "while"
  | .open => "\x7b"
  | .close => "\x7d"

/-- The keyword that is written in a way. -/
def ofText? (s : Text) : Option Keyword := all.find? fun k => k.text == s

end Keyword

inductive RedirectSign where
  | file (mode : OpenMode)
  | descriptor
  | document (stripTabs : Bool)
deriving DecidableEq

inductive Token where
  | endOfFile
  | newline
  | semicolon
  | ampersand
  | both
  | either
  | bar
  | leftParen
  | rightParen
  | doubleSemicolon
  | redirect (descriptor : Nat) (sign : RedirectSign)
  | word (parts : Word)
  | keyword (k : Keyword)

namespace Token

/-- How messages call a token. -/
def name : Token → Text
  | endOfFile => "end of file"
  | newline => "newline"
  | semicolon => "\x22;\x22"
  | ampersand => "\x22&\x22"
  | both => "\x22&&\x22"
  | either => "\x22||\x22"
  | bar => "\x22|\x22"
  | leftParen => "\x22(\x22"
  | rightParen => "\x22)\x22"
  | doubleSemicolon => "\x22;;\x22"
  | redirect .. => "redirection"
  | word _ => "word"
  | keyword k => "\x22" ++ k.text ++ "\x22"

/-- Whether a list of commands may end before the token. -/
def endsList : Token → Bool
  | endOfFile | doubleSemicolon | rightParen => true
  | keyword .do | keyword .done | keyword .elif | keyword .else | keyword .esac | keyword .fi
  | keyword .then | keyword .close => true
  | _ => false

end Token

/-- What a reader looks out for when it reads a token. -/
structure Outlook where
  /-- Line breaks mean nothing. -/
  skipsLines : Bool := false
  keywords : Bool := false
  aliases : Bool := false
  /-- The word delimits a document, so nothing is put into it. -/
  delimiter : Bool := false

/-- A document that is announced and not read yet. -/
structure Announced where
  number : Nat
  delimiter : Text
  /-- Nothing is put into the document. -/
  verbatim : Bool
  stripTabs : Bool

/-- An alias whose text is being read, with the length of the script behind it. -/
structure OpenAlias where
  name : Text
  behind : Nat

structure Reader where
  rest : Text
  line : Nat := 1
  /-- The last token. -/
  token : Token := .endOfFile
  /-- The last token is to be read again. -/
  unread : Bool := false
  outlook : Outlook := {}
  announced : List Announced := []
  /-- The documents read so far, by their numbers. -/
  documents : List (Nat × Word) := []
  /-- The number of the next document. -/
  nextDocument : Nat := 0
  aliases : List (Text × Text) := []
  openAliases : List OpenAlias := []

structure SyntaxFault where
  line : Nat
  message : Text
  /-- The script behind the place of the fault. -/
  rest : Text

abbrev Reading := StateT Reader (Except SyntaxFault)

namespace Reading

/-- Reports a fault where the reader stands. -/
def fault {α : Type} (message : Text) : Reading α := do
  let r ← get
  throw ⟨r.line, message, r.rest⟩

/-- The script behind joined lines, and how many of them there are. -/
def skipJoins : Text → Nat → Text × Nat
  | '\\' :: '\n' :: rest, joined => skipJoins rest (joined + 1)
  | rest, joined => (rest, joined)

/-- Goes on behind joined lines. -/
def join : Reading Unit := modify fun r =>
  match r.rest with
  | '\\' :: '\n' :: _ =>
    let (rest, joined) := skipJoins r.rest 0
    { r with rest := rest, line := r.line + joined }
  | _ => r

/-- The next character, which stays unread. -/
def peek : Reading (Option Char) := do
  join
  return (← get).rest.head?

/-- Goes on behind the next character. -/
def skip : Reading Unit := modify fun r =>
  match r.rest with
  | [] => r
  | c :: rest => { r with rest := rest, line := if c = '\n' then r.line + 1 else r.line }

/-- Goes on behind the next character, which does not count as a line break. -/
def pass : Reading Unit := modify fun r => { r with rest := r.rest.drop 1 }

/-- Reads a character, without joining lines. -/
def nextRaw : Reading (Option Char) := do
  let c := (← get).rest.head?
  skip
  return c

def next : Reading (Option Char) := do
  join
  nextRaw

/-- Reads the next character if it is the given one. -/
def accept (c : Char) : Reading Bool := do
  if (← peek) == some c then
    skip
    return true
  else return false

/-- Reads the longest run of characters of a kind; there are at most `fuel` of them. -/
def takeWhile (kind : Char → Bool) : Nat → Text → Reading Text
  | 0, found => return found.reverse
  | fuel + 1, found => do
    match ← peek with
    | some c =>
      if kind c then
        skip
        takeWhile kind fuel (c :: found)
      else return found.reverse
    | none => return found.reverse

/-- Reads the longest run of characters of a kind. -/
def takeRun (kind : Char → Bool) : Reading Text := do takeWhile kind (← get).rest.length []

/-- Says what the reader looks out for in the next token. -/
def lookOut (o : Outlook) : Reading Unit := modify fun r => { r with outlook := o }

/-- Has the last token read again. -/
def unread : Reading Unit := modify fun r => { r with unread := true }

def lastToken : Reading Token := return (← get).token

/-- The longest message of a fault. -/
def faultLimit : Nat := 63

/-- Reports that the last token is out of place. -/
def unexpected {α : Type} (wanted : Option Text) : Reading α := do
  let message := (← lastToken).name ++ " unexpected" ++ match wanted with
    | none => []
    | some name => " (expecting " ++ name ++ ")"
  fault (message.take faultLimit)

end Reading
end NinjaPlan.Script
