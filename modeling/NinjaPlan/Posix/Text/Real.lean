import NinjaPlan.Posix.Text.Number

/-! # Real numbers in texts

Machines keep real numbers as binary fractions of bounded length.  A number that is read is
rounded to the nearest of them, to the even one of two; a number that is written is exactly the
binary fraction, rounded to the digits wanted in the same way. -/

namespace NinjaPlan

/-- A number that a machine may hold. -/
inductive Real where
  | finite (negative : Bool) (numerator denominator : Nat)
  | infinite (negative : Bool)
  | undefined
deriving DecidableEq

/-- How long the numbers of a machine may be. -/
structure Precision where
  /-- The bits of a fraction. -/
  bits : Nat
  /-- Numbers are less than two to this power. -/
  top : Nat
  /-- Numbers are multiples of one half to this power. -/
  bottom : Nat

/-- Numbers of 64 bits. -/
def Precision.double : Precision := ⟨53, 1024, 1074⟩

/-- Numbers of 80 bits. -/
def Precision.extended : Precision := ⟨64, 16384, 16445⟩

namespace Real

/-- The whole number nearest to a quotient, the even one of two. -/
def nearest (a b : Nat) : Nat :=
  let q := a / b
  let twice := 2 * (a % b)
  if twice < b ∨ (twice = b ∧ q % 2 = 0) then q else q + 1

/-- The quotient as a binary fraction of the precision; `none` if it is too great. -/
def round? (p : Precision) (a b : Nat) : Option (Nat × Nat) :=
  if a = 0 then some (0, 1)
  else
    let size : Int := (Nat.log2 a : Int) - Nat.log2 b
    let below := if 0 ≤ size then a < b * Nat.pow 2 size.toNat
      else a * Nat.pow 2 (-size).toNat < b
    let exponent : Int := if below then size - 1 else size
    let unit : Int := max (exponent + 1 - p.bits) (-(p.bottom : Int))
    let n := if 0 ≤ unit then nearest a (b * Nat.pow 2 unit.toNat)
      else nearest (a * Nat.pow 2 (-unit).toNat) b
    let rounded := if 0 ≤ unit then (n * Nat.pow 2 unit.toNat, 1) else (n, Nat.pow 2 (-unit).toNat)
    if Nat.pow 2 p.top * rounded.2 ≤ rounded.1 then none else some rounded

/-- A number that was read, what follows it, and whether it was out of range. -/
structure Reading where
  value : Real
  rest : Text
  outOfRange : Bool := false

/-- The exponent behind a letter at the start of a text. -/
def exponentAt (letter : Char) (s : Text) : Int × Text :=
  match s with
  | c :: rest =>
    if c.toLower = letter then
      let (negative, digits) := Number.signAt rest
      let run := digits.takeWhile Char.isDigit
      if run.isEmpty then (0, s)
      else
        let n : Int := Number.ofDigits 10 run
        (if negative then -n else n, digits.drop run.length)
    else (0, s)
  | [] => (0, s)

/-- The number of digits beyond which an exponent need not be looked at. -/
def exponentLimit : Int := 20000

/-- The digits of a number at the start of a text: those before and behind the point, and the
rest. -/
def fractionAt (base : Nat) (s : Text) : Text × Text × Text :=
  let whole := Number.digitsAt base s
  match s.drop whole.length with
  | '.' :: rest =>
    let part := Number.digitsAt base rest
    if whole.isEmpty && part.isEmpty then ([], [], s) else (whole, part, rest.drop part.length)
  | rest => (whole, [], rest)

/-- The number of digits with an exponent, rounded. -/
def ofParts (p : Precision) (negative : Bool) (digits : Text) (base radix : Nat)
    (exponent : Int) (rest : Text) : Reading :=
  let n := Number.ofDigits base digits
  let size : Int := exponent + 4 * digits.length
  if n = 0 then ⟨.finite negative 0 1, rest, false⟩
  else if exponent > exponentLimit then ⟨.infinite negative, rest, true⟩
  else if size < -exponentLimit then ⟨.finite negative 0 1, rest, true⟩
  else
    let (a, b) := if 0 ≤ exponent then (n * Nat.pow radix exponent.toNat, 1)
      else (n, Nat.pow radix (-exponent).toNat)
    match round? p a b with
    | none => ⟨.infinite negative, rest, true⟩
    | some (0, _) => ⟨.finite negative 0 1, rest, true⟩
    | some (a, b) => ⟨.finite negative a b, rest, false⟩

/-- Whether a text starts with a word, whatever the case of its letters. -/
def startsWith (word s : Text) : Bool := word.isPrefixOf (s.map Char.toLower)

/-- The number at the start of a text, perhaps behind blanks and a sign. -/
def readAt? (p : Precision) (s : Text) : Option Reading :=
  let (negative, s) := Number.signAt (s.dropWhile Number.isSpace)
  if startsWith "infinity" s then some ⟨.infinite negative, s.drop 8, false⟩
  else if startsWith "inf" s then some ⟨.infinite negative, s.drop 3, false⟩
  else if startsWith "nan" s then some ⟨.undefined, s.drop 3, false⟩
  else
    let decimal : Option Reading :=
      let (whole, part, rest) := fractionAt 10 s
      if whole.isEmpty && part.isEmpty then none
      else
        let (exponent, rest) := exponentAt 'e' rest
        some (ofParts p negative (whole ++ part) 10 10 (exponent - part.length) rest)
    if startsWith "0x" s then
      let (whole, part, rest) := fractionAt 16 (s.drop 2)
      if whole.isEmpty && part.isEmpty then decimal
      else
        let (exponent, rest) := exponentAt 'p' rest
        some (ofParts p negative (whole ++ part) 16 2 (exponent - 4 * part.length) rest)
    else decimal

/-! ### Writing -/

/-- Digits with a point before the last of them; the point is left out if nothing follows it and
it is not wanted. -/
def pointed (places : Nat) (keepPoint : Bool) (n : Nat) : Text :=
  let digits := Number.inBase 10 n
  let digits := List.replicate (places + 1 - digits.length) '0' ++ digits
  let whole := digits.take (digits.length - places)
  let part := digits.drop (digits.length - places)
  if part.isEmpty && !keepPoint then whole else whole ++ '.' :: part

/-- The number with a fixed number of places. -/
def fixed (places : Nat) (keepPoint : Bool) (a b : Nat) : Text :=
  pointed places keepPoint (nearest (a * Nat.pow 10 places) b)

/-- The leading digits of a number, one and as many as wanted, and the power of ten of the first. -/
def leading (places : Nat) (a b : Nat) : Nat × Int :=
  if a = 0 then (0, 0)
  else
    let size : Int := ((Number.inBase 10 a).length : Int) - (Number.inBase 10 b).length
    let below := if 0 ≤ size then a < b * Nat.pow 10 size.toNat
      else a * Nat.pow 10 (-size).toNat < b
    let exponent : Int := if below then size - 1 else size
    let shift : Int := places - exponent
    let n := if 0 ≤ shift then nearest (a * Nat.pow 10 shift.toNat) b
      else nearest a (b * Nat.pow 10 (-shift).toNat)
    if n = Nat.pow 10 (places + 1) then (Nat.pow 10 places, exponent + 1) else (n, exponent)

def powerText (exponent : Int) : Text :=
  let digits := Number.inBase 10 exponent.natAbs
  'e' :: (if exponent < 0 then '-' else '+') :: List.replicate (2 - digits.length) '0' ++ digits

/-- The number as leading digits and a power of ten. -/
def scientific (places : Nat) (keepPoint : Bool) (a b : Nat) : Text :=
  let (n, exponent) := leading places a b
  pointed places keepPoint n ++ powerText exponent

/-- The text without zeros behind the point, and without the point if nothing is left there. -/
def withoutZeros (s : Text) : Text :=
  if s.contains '.' then
    let s := (s.reverse.dropWhile (· == '0'))
    (if s.head? = some '.' then s.drop 1 else s).reverse
  else s

/-- The number with a number of digits, in the shorter of the two ways. -/
def general (digits : Nat) (keepZeros : Bool) (a b : Nat) : Text :=
  let digits := max digits 1
  let (n, exponent) := leading (digits - 1) a b
  let trimmed (s : Text) : Text := if keepZeros then s else withoutZeros s
  if exponent < (digits : Int) ∧ -4 ≤ exponent then
    trimmed (fixed ((digits : Int) - 1 - exponent).toNat keepZeros a b)
  else trimmed (pointed (digits - 1) keepZeros n) ++ powerText exponent

end Real
end NinjaPlan
