import NinjaPlan.Posix.Script.Session

/-! # Utilities

A utility is a command that the shell carries out itself.  It is given its arguments, without its
own name, and gives a status. -/

namespace NinjaPlan.Script

abbrev Utility := List Text → Act Nat

/-- The options among some arguments, with the words that belong to them, and the arguments that
are left. -/
structure Options where
  found : List (Char × Text) := []
  rest : List Text

namespace Options

def has (o : Options) (letter : Char) : Bool := o.found.any fun f => f.1 == letter

def word? (o : Options) (letter : Char) : Option Text := o.found.reverse.lookup letter

/-- Whether a letter is allowed, and whether a word belongs to it, as a colon behind it tells. -/
def allowed (letter : Char) : Text → Option Bool
  | [] => none
  | [c] => if c = letter then some false else none
  | c :: ':' :: rest => if c = letter then some true else allowed letter rest
  | c :: rest => if c = letter then some false else allowed letter rest

/-- Reads the options in the letters of a word. -/
def readLetters (allow : Text) : Text → List Text → List (Char × Text) →
    Act (List (Char × Text) × List Text)
  | [], rest, found => return (found, rest)
  | c :: letters, rest, found =>
    match allowed c allow with
    | none => Act.fail ("Illegal option -" ++ [c])
    | some false => readLetters allow letters rest ((c, []) :: found)
    | some true =>
      match letters, rest with
      | [], [] => Act.fail ("No arg for -" ++ [c] ++ " option")
      | [], w :: rest => return ((c, w) :: found, rest)
      | _, _ => return ((c, letters) :: found, rest)

/-- Reads options; the number bounds how many words there are. -/
def readFrom (allow : Text) : Nat → List Text → List (Char × Text) → Act Options
  | 0, rest, found => return ⟨found.reverse, rest⟩
  | fuel + 1, rest, found => do
    match rest with
    | ['-', '-'] :: rest => return ⟨found.reverse, rest⟩
    | ('-' :: c :: letters) :: rest =>
      let (found, rest) ← readLetters allow (c :: letters) rest found
      readFrom allow fuel rest found
    | _ => return ⟨found.reverse, rest⟩

def read (allow : Text) (arguments : List Text) : Act Options :=
  readFrom allow (arguments.length + 1) arguments []

end Options

/-- A text as a script writes it: between single quotes, but for the quotes in it. -/
def singleQuotedFrom : Nat → Text → Text
  | 0, _ => []
  | fuel + 1, s =>
    let plain := s.takeWhile (· != '\x27')
    let rest := s.drop plain.length
    let quotes := rest.takeWhile (· == '\x27')
    let piece := '\x27' :: plain ++ ['\x27']
    if quotes.isEmpty then piece
    else
      let behind := rest.drop quotes.length
      let quoted := '\x22' :: quotes ++ ['\x22']
      piece ++ quoted ++ if behind.isEmpty then [] else singleQuotedFrom fuel behind

/-- A text as a script writes it. -/
def singleQuoted (s : Text) : Text := singleQuotedFrom (s.length + 1) s

end NinjaPlan.Script
