import NinjaPlan.Path.Basic
import NinjaPlan.Text.Quoted

/-! # Escaping paths in a build file

In a statement of a Ninja file a `$` before a dollar sign, a space or a colon makes it part of
the path.  There is no such escape for a line break, so a path with one cannot be written. -/

namespace NinjaPlan.BuildFile

/-- Why a build file cannot be written. -/
inductive RenderError where
  /-- A path holds a line break. -/
  | newlineInPath (path : Text)
  /-- The command of a rule holds a line break. -/
  | newlineInCommand (rule : Text)
deriving DecidableEq

def RenderError.message : RenderError → Text
  | newlineInPath path =>
    "path " ++ Text.quoted path ++ " contains a newline and cannot be written to a Ninja file"
  | newlineInCommand rule => "command for rule '" ++ rule ++ "' contains a newline"

/-- The characters of a path that need an escape. -/
def needsEscape (c : Char) : Bool := c == '$' || c == ' ' || c == ':'

def escapeChar (c : Char) : Text := if needsEscape c then ['$', c] else [c]

/-- A path as a word of a statement. -/
def escapePath (p : Path) : Except RenderError Text :=
  if Text.hasLineBreak p.text then .error (.newlineInPath p.text)
  else .ok (p.text.flatMap escapeChar)

/-- Paths as words of a statement, up to the first that cannot be written. -/
def escapePaths : List Path → Except RenderError (List Text)
  | [] => .ok []
  | p :: ps => do
    let word ← escapePath p
    let words ← escapePaths ps
    return word :: words

end NinjaPlan.BuildFile
