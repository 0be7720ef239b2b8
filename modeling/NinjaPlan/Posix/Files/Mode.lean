import NinjaPlan.Posix.Text.Number

/-! # Permissions

Permissions are nine bits: reading, writing and running for the owner, the group and the others.
They are written as an octal number, as letters, or as changes to what is there. -/

namespace NinjaPlan.Permissions

def every : Nat := 0o777

/-- The bits of a letter, for all. -/
def ofLetter (letter : Char) : Nat :=
  match letter with
  | 'r' => 0o444
  | 'w' => 0o222
  | 'x' | 'X' => 0o111
  | _ => 0

/-- The bits of those whom a letter stands for. -/
def ofWhom (letter : Char) : Nat :=
  match letter with
  | 'u' => 0o700
  | 'g' => 0o070
  | 'o' => 0o007
  | _ => every

/-- The permissions that one of the three has, for all. -/
def copied (letter : Char) (permissions : Nat) : Nat :=
  let bits := match letter with
    | 'u' => permissions / 64
    | 'g' => permissions / 8
    | _ => permissions
  bits % 8 * 0o111

/-- Takes bits away. -/
def without (permissions bits : Nat) : Nat := permissions &&& (0o7777 ^^^ bits)

/-- The bits of the letters at the start of a change; whether an `X` counts is told. -/
def lettersBits (runs : Bool) (permissions : Nat) (letters : Text) : Nat :=
  letters.foldl (fun bits c =>
    bits ||| if c = 'X' then (if runs then ofLetter c else 0)
      else if "ugo".toList.contains c then copied c permissions
      else ofLetter c) 0

/-- Goes on with the changes of a clause for the given whom; the number bounds how many there
are. -/
def changesFrom (whom mask : Nat) (isDirectory : Bool) : Nat → Nat → Text → Option Nat
  | 0, _, _ => none
  | _, permissions, [] => some permissions
  | fuel + 1, permissions, sign :: rest =>
    let letters := rest.takeWhile "rwxXstugo".toList.contains
    let behind := rest.drop letters.length
    let runs := isDirectory || permissions &&& 0o111 != 0
    let whomOrAll := if whom = 0 then every else whom
    let bits := lettersBits runs permissions letters &&& whomOrAll
    let bits := if whom = 0 then without bits mask else bits
    match sign with
    | '+' => changesFrom whom mask isDirectory fuel (permissions ||| bits) behind
    | '-' => changesFrom whom mask isDirectory fuel (without permissions bits) behind
    | '=' =>
      changesFrom whom mask isDirectory fuel (without permissions whomOrAll ||| bits) behind
    | _ => none

/-- Makes the changes of a clause. -/
def clause? (mask : Nat) (isDirectory : Bool) (permissions : Nat) (s : Text) : Option Nat :=
  let letters := s.takeWhile "ugoa".toList.contains
  let whom := letters.foldl (fun bits c => bits ||| ofWhom c) 0
  match s.drop letters.length with
  | [] => none
  | changes => changesFrom whom mask isDirectory (changes.length + 1) permissions changes

/-- Makes the changes that a text tells, in which bits of the mask are only meant where it is said
for whom. -/
def change? (mask : Nat) (isDirectory : Bool) (permissions : Nat) (s : Text) : Option Nat :=
  if s ≠ [] ∧ s.all (fun c => Number.digitValue c < 8) then
    let n := Number.ofDigits 8 s
    if n ≤ 0o7777 then some n else none
  else
    (Text.pieces ',' s).foldl (fun found c => found.bind fun p => clause? mask isDirectory p c)
      (some permissions)

/-- The letters of the permissions that one of the three has. -/
def letters (bits : Nat) : Text :=
  [(4, 'r'), (2, 'w'), (1, 'x')].filterMap fun (bit, c) =>
    if bits &&& bit = 0 then none else some c

/-- The permissions as a change that gives them. -/
def symbolic (permissions : Nat) : Text :=
  "u=" ++ letters (permissions / 64) ++ ",g=" ++ letters (permissions / 8) ++ ",o=" ++
    letters permissions

def octal (permissions : Nat) : Text := Number.inBase 8 permissions

end NinjaPlan.Permissions
