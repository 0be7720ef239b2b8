import NinjaPlan.Posix.Text.Octets

/-! # The language of scripts

A script is a list of commands for a shell.  Words are kept as they were written, in parts, for
what a word stands for is only known when its command runs: parameters and the output of other
commands are put in, and the result is cut into fields unless quotes protect it.

The characters of a script are octets. -/

namespace NinjaPlan.Script

/-- What is asked of a parameter's value. -/
inductive Substitution where
  | value
  /-- The number of octets. -/
  | length
  /-- Another word for a missing value; or, if asked, for an empty one. -/
  | orElse (emptyToo : Bool)
  /-- Another word for a value that is not missing. -/
  | ifSet (emptyToo : Bool)
  /-- Another word for a missing value, which the parameter then has. -/
  | assign (emptyToo : Bool)
  /-- An error if the value is missing. -/
  | demand (emptyToo : Bool)
  /-- The value without what matches a pattern at its start. -/
  | trimStart (longest : Bool)
  /-- The value without what matches a pattern at its end. -/
  | trimEnd (longest : Bool)
  /-- Something that means nothing. -/
  | malformed
deriving DecidableEq

/-- How a file is opened for a redirection. -/
inductive OpenMode where
  | read
  | write
  /-- As for writing, whatever the shell's options say. -/
  | overwrite
  | append
  | readWrite
deriving DecidableEq

mutual

inductive Part where
  | char (c : Char)
  /-- A character that a backslash protects. -/
  | escaped (c : Char)
  | single (text : Text)
  | double (parts : List Part)
  | parameter (name : Text) (substitution : Substitution) (argument : List Part)
  /-- The output of commands. -/
  | command (body : Option Command)
  /-- The value of an expression. -/
  | arithmetic (expression : List Part)

/-- What a descriptor is to be connected to. -/
inductive RedirectTarget where
  | file (mode : OpenMode) (name : List Part)
  /-- What the descriptor with the given number is connected to. -/
  | descriptor (word : List Part)
  /-- The document with a number in the script. -/
  | document (number : Nat)

inductive Redirect where
  | mk (descriptor : Nat) (target : RedirectTarget)

inductive Command where
  | simple (line : Nat) (assignments : List (Text × List Part)) (words : List (List Part))
      (redirects : List Redirect)
  | pipeline (commands : List Command) (background : Bool)
  | negation (body : Command)
  | conjunction (first second : Command)
  | disjunction (first second : Command)
  | sequence (first second : Command)
  | redirected (line : Nat) (body : Command) (redirects : List Redirect)
  | subshell (line : Nat) (body : Command) (redirects : List Redirect)
  | background (line : Nat) (body : Command) (redirects : List Redirect)
  | choice (test yes : Command) (no : Option Command)
  | loop (whileFalse : Bool) (test body : Command)
  | forEach (line : Nat) (name : Text) (words : List (List Part)) (body : Command)
  | select (line : Nat) (subject : List Part)
      (arms : List (List (List Part) × Option Command))
  | define (line : Nat) (name : Text) (body : Command)

end

abbrev Word := List Part

instance : Inhabited Command := ⟨.simple 0 [] [] []⟩

/-- Whether a character may begin the name of a variable. -/
def isNameStart (c : Char) : Bool := c.isAlpha || c == '_'

/-- Whether a character may go on the name of a variable. -/
def isNameChar (c : Char) : Bool := c.isAlphanum || c == '_'

def isName (s : Text) : Bool :=
  match s with
  | [] => false
  | c :: cs => isNameStart c && cs.all isNameChar

/-- Whether a character is the name of a parameter that the shell sets. -/
def isSpecialName (c : Char) : Bool := "#?$!-*@".toList.contains c || c.isDigit

/-- The characters of the longest start of a word that are not quoted. -/
def plainStart : Word → Text
  | .char c :: rest => c :: plainStart rest
  | _ => []

/-- The variable and the value of a word that assigns one. -/
def assignment? (w : Word) : Option (Text × Word) :=
  let name := (plainStart w).takeWhile (· != '=')
  if isName name && name.length < (plainStart w).length then
    some (name, w.drop (name.length + 1))
  else none

def plainText? (w : Word) : Option Text :=
  let start := plainStart w
  if start.length = w.length then some start else none

end NinjaPlan.Script
