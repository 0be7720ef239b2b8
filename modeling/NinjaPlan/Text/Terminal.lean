import NinjaPlan.Text.Utf8

/-! # What a terminal shows

A text for a terminal may hold control sequences (colours, cursor movements, titles).  `shown`
leaves out the sequences and all other control characters but line breaks, tabs and form feeds.

A sequence begins with an escape character, wherever it stands, and may be unfinished at the
end; a line break, tab or form feed in the middle of a short one ends it and is shown. -/

namespace NinjaPlan.Text

/-- Where in a text for a terminal a reader stands. -/
inductive TerminalState where
  | plain
  /-- After an escape character. -/
  | escape
  /-- In a sequence that any letter or digit ends. -/
  | designation
  /-- In a sequence with parameters, which a letter ends. -/
  | control
  /-- In a command, which a bell ends. -/
  | command
  /-- In the parameters of a control string. -/
  | stringHead
  /-- In a control string, which a terminator byte ends. -/
  | string
deriving DecidableEq

/-- The control characters that are shown. -/
def isSpacing (c : Char) : Bool := c == '\t' || c == '\n' || c == '\x0c' || c == '\r'

/-- Whether the byte that terminates control strings is among those of the character. -/
def holdsTerminator (c : Char) : Bool := (Utf8.encodeChar c).contains 0x9C

namespace TerminalState

/-- The state after an escape character and another one. -/
def begin (c : Char) : TerminalState :=
  let n := c.toNat
  if c = '[' then control
  else if c = ']' then command
  else if c = 'P' then stringHead
  else if c = 'X' ∨ c = '^' ∨ c = '_' then string
  else if 0x20 ≤ n ∧ n ≤ 0x2F then designation
  else if 0x30 ≤ n ∧ n ≤ 0x7E then plain
  else escape

/-- The state after a character that neither begins nor breaks off a sequence. -/
def advance (s : TerminalState) (c : Char) : TerminalState :=
  let n := c.toNat
  match s with
  | plain => plain
  | escape => begin c
  | designation => if 0x30 ≤ n ∧ n ≤ 0x7E then plain else designation
  | control => if 0x40 ≤ n ∧ n ≤ 0x7E then plain else control
  | command => if c = '\x07' then plain else command
  | stringHead => if (0x40 ≤ n ∧ n ≤ 0x7E) ∨ c = ':' then string else stringHead
  | string => if holdsTerminator c then plain else string

/-- The state after a character, and whether the character is shown. -/
def step (s : TerminalState) (c : Char) : TerminalState × Bool :=
  if c = '\x1b' then (escape, false)
  else if c = '\x18' ∨ c = '\x1a' then (plain, false)
  else
    match s with
    | plain => (plain, isSpacing c || (0x20 ≤ c.toNat && c != '\x7f'))
    | escape | designation | control =>
      if isSpacing c then (plain, true) else (s.advance c, false)
    | command | stringHead | string => (s.advance c, false)

end TerminalState

/-- The characters shown of a text that is read in a state. -/
def shownFrom : TerminalState → Text → Text
  | _, [] => []
  | s, c :: cs =>
    let (next, visible) := s.step c
    if visible then c :: shownFrom next cs else shownFrom next cs

/-- What a terminal shows of a text. -/
def shown (s : Text) : Text := shownFrom .plain s

/-- The first line, without the break that ends it. -/
def firstLine (s : Text) : Text :=
  let line := s.takeWhile (· != '\n')
  if line.length < s.length ∧ line.getLast? = some '\r' then line.dropLast else line

end NinjaPlan.Text
