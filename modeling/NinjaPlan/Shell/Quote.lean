import NinjaPlan.Text.Basic

/-! # Quoting for the shell

`quoteWord?` writes any text without a NUL as one word of a POSIX shell command.  The text is cut
greedily into chunks that one style of quoting can hold; each chunk is written bare if it may
be, else between single quotes, else between double quotes, and the chunks follow one another
without a gap.  A circumflex is only written between single quotes, and only at the start of a
chunk. -/

namespace NinjaPlan.Shell

/-- A way to write a part of a word. -/
inductive Style where
  | bare
  | single
  | double
deriving DecidableEq

/-- The characters that may stand in a word without quotes. -/
def isBareChar (c : Char) : Bool :=
  c.isAlphanum || c ∈ ['+', '-', '.', '/', ':', '@', ']', '_']

/-- Whether a chunk in this style may hold the character. -/
def Style.admits : Style → Char → Bool
  | bare, c => isBareChar c
  | single, c => !(c ∈ ['\x27', '^', '\\'])
  | double, c => !(c ∈ ['\x60', '$', '!', '^'])

/-- The characters of a double-quoted chunk that need a backslash. -/
def escapeDouble (c : Char) : Text :=
  if c ∈ ['$', '\x60', '\x22', '\\'] then ['\\', c] else [c]

def Style.write : Style → Text → Text
  | bare, chunk => chunk
  | single, chunk => '\x27' :: chunk ++ ['\x27']
  | double, chunk => '\x22' :: chunk.flatMap escapeDouble ++ ['\x22']

/-- The styles still open for a chunk, the preferred one first. -/
abbrev Styles := List Style

def Styles.all : Styles := [.bare, .single, .double]

/-- The styles among those given that also admit `c`. -/
def Styles.restrict (styles : Styles) (c : Char) : Styles := styles.filter (·.admits c)

/-- The styles open for a chunk that starts with `c`. -/
def Styles.start (c : Char) : Styles :=
  if c = '^' then [.single] else Styles.all.restrict c

/-- A chunk in the first style open for it. -/
def Styles.write (styles : Styles) (chunk : Text) : Text :=
  match styles with
  | [] => chunk
  | style :: _ => style.write chunk

/-- Writes the chunk begun, whose characters are given last first, and the chunks that follow. -/
def writeChunks (styles : Styles) (chunk : Text) : Text → Text
  | [] => styles.write chunk.reverse
  | c :: cs =>
    match styles.restrict c with
    | [] => styles.write chunk.reverse ++ writeChunks (Styles.start c) [c] cs
    | s :: more => writeChunks (s :: more) (c :: chunk) cs

/-- The text as one word of a shell command; a NUL cannot be written. -/
def quoteWord? (s : Text) : Option Text :=
  if '\x00' ∈ s then none
  else match s with
    | [] => some ['\x27', '\x27']
    | c :: cs => some (writeChunks (Styles.start c) [c] cs)

end NinjaPlan.Shell
