import NinjaPlan.Text.Printable
import NinjaPlan.Text.Utf8

/-! # Quoted texts

Messages show a text that may hold line breaks in double quotes, with escapes for the
characters that do not stand for themselves. -/

namespace NinjaPlan.Text

/-- A number in lower-case hexadecimal digits. -/
def hex (n : Nat) : Text := Nat.toDigits 16 n

def quoteChar (c : Char) : Text :=
  if c = '\x00' then "\\0"
  else if c = '\t' then "\\t"
  else if c = '\r' then "\\r"
  else if c = '\n' then "\\n"
  else if c = '\\' then "\\\\"
  else if c = '\x22' then "\\\x22"
  else if isPrintable c then [c]
  else "\\u\x7b" ++ hex c.toNat ++ "\x7d"

def quoted (s : Text) : Text := "\x22" ++ s.flatMap quoteChar ++ "\x22"

end NinjaPlan.Text
