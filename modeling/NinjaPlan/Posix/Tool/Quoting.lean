import NinjaPlan.Posix.Text.Number

/-! # Words in messages

How the messages of the tools show words and the names of files.  A word stands between single
quotes, with escapes for what cannot be printed; the name of a file is written as a shell would
take it. -/

namespace NinjaPlan.Tool

/-- The escape of an octet that cannot be printed. -/
def escape? (c : Char) : Option Text :=
  let n := c.toNat
  if c = '\x07' then some "\\a"
  else if c = '\x08' then some "\\b"
  else if c = '\t' then some "\\t"
  else if c = '\n' then some "\\n"
  else if c = '\x0b' then some "\\v"
  else if c = '\x0c' then some "\\f"
  else if c = '\r' then some "\\r"
  else if 32 ≤ n ∧ n < 127 then none
  else
    let digits := Number.inBase 8 n
    some ('\\' :: List.replicate (3 - digits.length) '0' ++ digits)

/-- A word as messages show it. -/
def quoted (s : Text) : Text :=
  let shown (c : Char) : Text :=
    if c = '\\' ∨ c = '\x27' then ['\\', c] else (escape? c).getD [c]
  '\x27' :: s.flatMap shown ++ ['\x27']

/-- A word between single quotes, as it is. -/
def bareQuoted (s : Text) : Text := '\x27' :: s ++ ['\x27']

/-- Whether an octet of a text, at an index, means something to a shell. -/
def isSpecialAt (size index : Nat) (c : Char) : Bool :=
  let special : Text := " !\x22$&()*;<=>[^\x60|\\?\x27"
  special.contains c || (escape? c).isSome || (index == 0 && (c == '#' || c == '~')) ||
    (size == 1 && (c == '\x7b' || c == '\x7d'))

/-- Whether a shell takes an octet, at an index, for itself in double quotes. -/
def isPlainInDouble (index : Nat) (c : Char) : Bool :=
  let special : Text := "!\x22$&()*;<=>[^\x60|\\?\x7b\x7d"
  !special.contains c && (escape? c).isNone && (index == 0 || (c != '#' && c != '~'))

/-- The octets of a name between the quotes of a shell, which are open at the start and, but for
those of an escape, at the end. -/
def betweenQuotes : Bool → Text → Text
  | _, [] => []
  | inEscape, c :: rest =>
    match escape? c with
    | some e =>
      let start : Text := if inEscape then [] else "'$'"
      start ++ e ++ betweenQuotes true rest
    | none =>
      let start : Text := if inEscape then "''" else []
      if c = '\x27' then "'\\''" ++ betweenQuotes false rest
      else start ++ c :: betweenQuotes false rest

/-- The name of a file in the quotes that a shell takes. -/
def quotedPath (path : Text) : Text :=
  let plain := path.zipIdx.all fun (c, index) => isPlainInDouble index c
  if path.contains '\x27' ∧ plain then '\x22' :: path ++ ['\x22']
  else '\x27' :: betweenQuotes false path ++ ['\x27']

/-- The name of a file, in quotes if a shell needs them, or if there is a colon in it. -/
def shownPath (path : Text) : Text :=
  let special := path.zipIdx.any fun (c, index) => isSpecialAt path.length index c
  if path = [] ∨ special ∨ path.contains ':' then quotedPath path else path

end NinjaPlan.Tool
