import NinjaPlan.Text.Basic

/-! # Words of a shell command

The rules by which a POSIX shell splits a command into words, as far as quoting is concerned:
blanks separate words; single quotes keep everything; in double quotes a backslash escapes
`$`, a backquote, a double quote and itself, and vanishes with a line feed; elsewhere a backslash
escapes any character.  A quote that is not closed, or a backslash at the end, makes the command
malformed. -/

namespace NinjaPlan.Shell

/-- What encloses the next character. -/
inductive Enclosure where
  | bare
  | single
  | double
deriving DecidableEq

/-- The blanks between words. -/
def isSeparator (c : Char) : Bool := c == ' ' || c == '\t' || c == '\n'

/-- The characters that a backslash escapes between double quotes. -/
def isDoubleEscapable (c : Char) : Bool := c ∈ ['$', '\x60', '\x22', '\\']

/-- The words of the rest of a command, where `word` is the word begun, if any. -/
def wordsFrom : Enclosure → Option Text → Text → Option (List Text)
  | .bare, word, [] => some word.toList
  | _, _, [] => none
  | .bare, word, c :: cs =>
    if isSeparator c then (wordsFrom .bare none cs).map (word.toList ++ ·)
    else if c = '\x27' then wordsFrom .single (some (word.getD [])) cs
    else if c = '\x22' then wordsFrom .double (some (word.getD [])) cs
    else if c = '\\' then
      match cs with
      | [] => none
      | d :: ds =>
        if d = '\n' then wordsFrom .bare word ds
        else wordsFrom .bare (some (word.getD [] ++ [d])) ds
    else wordsFrom .bare (some (word.getD [] ++ [c])) cs
  | .single, word, c :: cs =>
    if c = '\x27' then wordsFrom .bare word cs
    else wordsFrom .single (some (word.getD [] ++ [c])) cs
  | .double, word, c :: cs =>
    if c = '\x22' then wordsFrom .bare word cs
    else if c = '\\' then
      match cs with
      | [] => none
      | d :: ds =>
        if d = '\n' then wordsFrom .double word ds
        else if isDoubleEscapable d then wordsFrom .double (some (word.getD [] ++ [d])) ds
        else wordsFrom .double (some (word.getD [] ++ [c, d])) ds
    else wordsFrom .double (some (word.getD [] ++ [c])) cs

/-- The words of a command, with their quotes removed. -/
def words? (command : Text) : Option (List Text) := wordsFrom .bare none command

end NinjaPlan.Shell
