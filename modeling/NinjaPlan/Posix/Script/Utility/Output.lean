import NinjaPlan.Posix.Script.Condition
import NinjaPlan.Posix.Script.Utility.Basic
import NinjaPlan.Posix.Text.Format

/-! # Printing and judging

The utilities `echo`, `printf` and `test`. -/

namespace NinjaPlan.Script.Utility

/-- What the words of an `echo` print: the words with their escapes replaced, up to one that ends
the output. -/
def echoed : List Text → Text
  | [] => []
  | [w] => (Escape.replace Escape.stopping w).1
  | w :: rest =>
    match Escape.replace Escape.stopping w with
    | (s, true) => s
    | (s, false) => s ++ ' ' :: echoed rest

/-- Whether a word of an `echo` ends the output. -/
def endsOutput (w : Text) : Bool := (Escape.replace Escape.stopping w).2

def echo : Utility := fun arguments =>
  let (words, ending) := match arguments with
    | ['-', 'n'] :: rest => (rest, ([] : Text))
    | _ => (arguments, ['\n'])
  Act.print (echoed words ++ if words.any endsOutput then [] else ending)

/-- How `printf` goes about its work. -/
def printfStyle : FormatStyle where
  realNumbers := .double
  escape := Escape.plain
  argumentEscape := Escape.stopping
  complaint a fault := match fault with
    | .noNumber => some (a ++ ": expected numeric value")
    | .moreThanNumber => some (a ++ ": not completely converted")
    | .outOfRange => some (a ++ ": Numerical result out of range")
    | .moreThanCharacter _ => none
  fails fault := match fault with
    | .moreThanCharacter _ => false
    | _ => true
  noConversion written := written ++ ": invalid directive"

/-- Prints arguments by a format. -/
def printf : Utility := fun arguments => do
  match (← Options.read [] arguments).rest with
  | [] => Act.fail "usage: printf format [arg ...]"
  | format :: arguments =>
    let done := printfStyle.format format arguments
    done.complaints.forM Act.complain
    match done.fault with
    | some message =>
      Act.complain message
      let _ ← Act.print done.output
      Act.setStatus Act.faultStatus
      throw .failed
    | none =>
      let status ← Act.print done.output
      return if done.failed then 1 else status

/-- Judges a condition. -/
def test : Utility := fun arguments => do
  let t ← Act.os Process.tree
  let here ← Act.os Process.directory
  match Condition.judge t here arguments with
  | .ok holds => return if holds then 0 else 1
  | .error message => Act.fail message

/-- Judges a condition in brackets. -/
def bracket : Utility := fun arguments => do
  match arguments.getLast? with
  | some (']' :: _) => test arguments.dropLast
  | _ => Act.fail "missing ]"

end NinjaPlan.Script.Utility
