import NinjaPlan.Text.Basic

/-! # Numbers in texts

How a number is read from the start of a text, and how numbers are written in a base. -/

namespace NinjaPlan.Number

/-- Whether a character separates nothing from nothing. -/
def isSpace (c : Char) : Bool := c == ' ' || (9 ≤ c.toNat && c.toNat ≤ 13)

/-- The value of a digit in bases up to sixteen. -/
def digitValue (c : Char) : Nat :=
  if c.isDigit then c.toNat - '0'.toNat
  else if 'a' ≤ c ∧ c ≤ 'f' then c.toNat - 'a'.toNat + 10
  else if 'A' ≤ c ∧ c ≤ 'F' then c.toNat - 'A'.toNat + 10
  else 16

def ofDigits (base : Nat) (digits : Text) : Nat :=
  digits.foldl (fun n c => n * base + digitValue c) 0

def digitsAt (base : Nat) (s : Text) : Text := s.takeWhile fun c => digitValue c < base

/-- The number at the start of a text: its value and what follows it.  A zero begins an octal
number, and a zero and an `x` a hexadecimal one. -/
def naturalAt (s : Text) : Nat × Text :=
  let inBase (base : Nat) (s : Text) : Nat × Text :=
    let digits := digitsAt base s
    (ofDigits base digits, s.drop digits.length)
  match s with
  | '0' :: x :: rest =>
    if (x = 'x' ∨ x = 'X') ∧ digitsAt 16 rest ≠ [] then inBase 16 rest else inBase 8 s
  | '0' :: _ => inBase 8 s
  | _ => inBase 10 s

/-- Whether there is a minus sign at the start of a text, and what follows the sign there is. -/
def signAt (s : Text) : Bool × Text :=
  match s with
  | '-' :: rest => (true, rest)
  | '+' :: rest => (false, rest)
  | _ => (false, s)

/-- The number at the start of a text, perhaps behind blanks and a sign, and what follows it;
`none` if there is none. -/
def integerAt? (s : Text) : Option (Int × Text) :=
  let (negative, digits) := signAt (s.dropWhile isSpace)
  if digits.head?.any Char.isDigit then
    let (n, rest) := naturalAt digits
    some (if negative then -(n : Int) else n, rest)
  else none

/-- The number that the digits of a text spell, if there is nothing else. -/
def natural? (s : Text) : Option Nat :=
  if s ≠ [] ∧ s.all Char.isDigit then some (ofDigits 10 s) else none

/-- The number that a text spells in decimal digits, perhaps with a sign. -/
def integer? (s : Text) : Option Int :=
  let (negative, digits) := signAt s
  (natural? digits).map fun n => if negative then -(n : Int) else n

/-- The number that a text spells in decimal digits, perhaps between blanks and with a sign. -/
def decimal? (s : Text) : Option Int :=
  let (negative, rest) := signAt (s.dropWhile isSpace)
  let run := rest.takeWhile Char.isDigit
  let n : Int := ofDigits 10 run
  if run.isEmpty ∨ !(rest.drop run.length).all isSpace then none
  else some (if negative then -n else n)

def inBase (base n : Nat) : Text := Nat.toDigits base n

end NinjaPlan.Number
