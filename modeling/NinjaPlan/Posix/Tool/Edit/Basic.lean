import NinjaPlan.Posix.Text.Regex

/-! # Scripts of the editor

A script is a list of commands.  Each of them has a choice, which tells the lines that it is for,
and an action.  Blocks and labels are actions among the others, so that a place in a script is a
number. -/

namespace NinjaPlan.Tool.Edit

/-- What tells lines.  A regular expression that is missing is the last one that was used. -/
inductive Address where
  | line (n : Nat)
  /-- Every so many lines from one on. -/
  | every (step first : Nat)
  | last
  | pattern (r : Option Regex)

/-- The end of a range of lines. -/
inductive Bound where
  | address (a : Address)
  /-- So many lines behind the first. -/
  | further (n : Nat)
  /-- The next line whose number is a multiple of one. -/
  | multiple (n : Nat)

/-- The lines that a command is for. -/
structure Choice where
  first : Option Address := none
  bound : Option Bound := none
  /-- All other lines are meant. -/
  negated : Bool := false

/-- A change of the case of letters. -/
inductive Casing where
  | upper
  | lower
  | plain
  | nextUpper
  | nextLower

/-- A part of what is put in place of a match. -/
inductive Part where
  | text (s : Text)
  /-- What a group has matched; group zero is the whole match. -/
  | group (n : Nat)
  | casing (c : Casing)

/-- What is put in place of matches. -/
structure Substitution where
  pattern : Option Regex
  parts : List Part
  /-- The number of the first match that is replaced. -/
  number : Nat := 1
  /-- All matches from there on are replaced. -/
  all : Bool := false
  prints : Bool := false
  file : Option Text := none

/-- What a command does. -/
inductive Action where
  | substitute (s : Substitution)
  | translate (pairs : List (Char × Char))
  | print
  | printFirst
  | delete
  | deleteFirst
  | next
  | join
  | hold
  | holdMore
  | recall
  | recallMore
  | swap
  | clear
  | showNumber
  | showName
  | showPlainly (width : Option Nat)
  | append (s : Text)
  | insert (s : Text)
  | change (s : Text)
  | readFile (name : Text)
  | writeFile (name : Text) (onlyFirst : Bool)
  | quit (status : Nat) (prints : Bool)
  | label (name : Text)
  | jump (name : Text)
  | jumpIfReplaced (name : Text)
  | jumpUnlessReplaced (name : Text)
  | opening
  | closing
  | nothing

structure Command where
  choice : Choice
  action : Action

abbrev Script := List Command

namespace Script

/-- The place of a label. -/
def labelled? (script : Script) (name : Text) : Option Nat :=
  script.findIdx? fun c => match c.action with
    | .label n => n == name
    | _ => false

/-- The label that a command jumps to, if it jumps to one. -/
def target? (c : Command) : Option Text :=
  match c.action with
  | .jump name | .jumpIfReplaced name | .jumpUnlessReplaced name =>
    if name.isEmpty then none else some name
  | _ => none

/-- A label that is jumped to and that is nowhere. -/
def missingLabel? (script : Script) : Option Text :=
  (script.filterMap target?).find? fun name => (script.labelled? name).isNone

/-- How many commands there are before the end of a block that has begun, so many blocks inside
of it. -/
def blockLength : Nat → Script → Nat
  | _, [] => 0
  | depth, c :: rest =>
    match c.action, depth with
    | .closing, 0 => 0
    | .closing, depth + 1 => blockLength depth rest + 1
    | .opening, depth => blockLength (depth + 1) rest + 1
    | _, depth => blockLength depth rest + 1

def behindBlock (script : Script) (place : Nat) : Nat :=
  place + 1 + blockLength 0 (script.drop (place + 1))

end Script
end NinjaPlan.Tool.Edit
