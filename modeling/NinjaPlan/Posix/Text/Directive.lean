import NinjaPlan.Posix.Text.Real

/-! # Directives

A directive of a format tells how a value is written: in which notation, to which precision, and
how wide. -/

namespace NinjaPlan

structure Directive where
  /-- The value stands at the left. -/
  left : Bool := false
  /-- Numbers that are not negative have a plus sign. -/
  plus : Bool := false
  /-- Numbers that are not negative have a blank in place of a sign. -/
  blank : Bool := false
  /-- Numbers are filled up with zeros. -/
  zero : Bool := false
  /-- Numbers show their base, or their point. -/
  alternate : Bool := false
  width : Nat := 0
  precision : Option Nat := none
  conversion : Char := 's'

namespace Directive

/-- The characters that set a directive's flags. -/
def flagChars : Text := "#-+ 0"

def ofFlags (flags : Text) : Directive where
  left := flags.contains '-'
  plus := flags.contains '+'
  blank := flags.contains ' '
  zero := flags.contains '0'
  alternate := flags.contains '#'

def withWidth (d : Directive) (width : Int) : Directive :=
  { d with width := width.natAbs, left := d.left || width < 0 }

def withPrecision (d : Directive) (precision : Int) : Directive :=
  { d with precision := if precision < 0 then none else some precision.toNat }

/-- A value as wide as the directive wants, the blanks outside. -/
def pad (d : Directive) (s : Text) : Text :=
  let blanks := List.replicate (d.width - s.length) ' '
  if d.left then s ++ blanks else blanks ++ s

/-- A number as wide as the directive wants; zeros may fill up behind the sign. -/
def padNumber (d : Directive) (zeros : Bool) (sign digits : Text) : Text :=
  if zeros && d.zero && !d.left then
    sign ++ List.replicate (d.width - sign.length - digits.length) '0' ++ digits
  else d.pad (sign ++ digits)

def text (d : Directive) (s : Text) : Text :=
  d.pad (match d.precision with
    | none => s
    | some n => s.take n)

def sign (d : Directive) (negative : Bool) : Text :=
  if negative then ['-'] else if d.plus then ['+'] else if d.blank then [' '] else []

/-- Digits, with zeros before them up to the precision. -/
def digits (d : Directive) (base n : Nat) : Text :=
  match d.precision with
  | none => Number.inBase base n
  | some 0 => if n = 0 then [] else Number.inBase base n
  | some p =>
    let digits := Number.inBase base n
    List.replicate (p - digits.length) '0' ++ digits

def signed (d : Directive) (n : Int) : Text :=
  d.padNumber d.precision.isNone (d.sign (n < 0)) (d.digits 10 n.natAbs)

/-- A whole number without a sign, in the base that the conversion tells. -/
def unsigned (d : Directive) (n : Nat) : Text :=
  let padded (mark digits : Text) : Text := d.padNumber d.precision.isNone mark digits
  match d.conversion with
  | 'o' =>
    let digits := d.digits 8 n
    padded [] (if d.alternate ∧ digits.head? ≠ some '0' then '0' :: digits else digits)
  | 'x' => padded (if d.alternate ∧ n ≠ 0 then "0x" else []) (d.digits 16 n)
  | 'X' =>
    padded (if d.alternate ∧ n ≠ 0 then "0X" else []) ((d.digits 16 n).map Char.toUpper)
  | _ => padded [] (d.digits 10 n)

/-- The precision of real numbers when nothing else is asked for. -/
def defaultPrecision : Nat := 6

def real (d : Directive) (x : Real) : Text :=
  let places := d.precision.getD defaultPrecision
  let cased (s : Text) : Text := if d.conversion.isUpper then s.map Char.toUpper else s
  match x with
  | .undefined => d.pad (cased (d.sign false ++ "nan"))
  | .infinite negative => d.pad (cased (d.sign negative ++ "inf"))
  | .finite negative a b =>
    let body := match d.conversion.toLower with
      | 'e' => Real.scientific places d.alternate a b
      | 'g' => Real.general places d.alternate a b
      | _ => Real.fixed places d.alternate a b
    d.padNumber true (d.sign negative) (cased body)

end Directive
end NinjaPlan
