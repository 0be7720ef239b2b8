import NinjaPlan.Posix.Text.Regex
import NinjaPlan.Posix.Tool.Basic

/-! # Evaluating expressions

The tool `expr` evaluates an expression whose signs are the words of its call.  An expression is
evaluated while it is read, so that what is wrong with its start is said first.

Operators bind in levels: `|`, then `&`, comparisons, sums, products, and matches as the tightest.
All of them group to the left. -/

namespace NinjaPlan.Tool
namespace Expression

inductive Value where
  | integer (n : Int)
  | text (s : Text)

namespace Value

def toText : Value → Text
  | integer n => (toString n).toList
  | text s => s

/-- The integer that a text spells, with a minus sign as its only sign. -/
def spelled? (s : Text) : Option Int := if s.head? = some '+' then none else Number.integer? s

def integer? : Value → Option Int
  | integer n => some n
  | text s => spelled? s

/-- Whether a value counts as false: a zero, or nothing. -/
def isNull : Value → Bool
  | integer n => n == 0
  | text s => s.isEmpty || spelled? s == some 0

def ofBool (b : Bool) : Value := integer (if b then 1 else 0)

end Value

/-! ### Operators -/

/-- Compares values, as integers if both spell them. -/
def compare (a b : Value) : Ordering :=
  let (s, t) := (a.toText, b.toText)
  match Value.spelled? s, Value.spelled? t with
  | some m, some n => Ord.compare m n
  | _, _ => if before s t then (if s = t then .eq else .lt) else .gt

/-- Matches a text with a basic regular expression from its start: the group of the expression,
or the length of the match. -/
def doMatch (a b : Value) : Except Text Value := do
  let (r, groups) ← Regex.parse {} b.toText
  match r.matchAt ⟨[], a.toText, []⟩ with
  | some m =>
    if groups = 0 then return .integer m.text.length
    else return .text ((m.groups.lookup 1).getD [])
  | none => return if groups = 0 then .integer 0 else .text []

/-- Combines integers. -/
def arithmetic (f : Int → Int → Except Text Int) (a b : Value) : Except Text Value :=
  match a.integer?, b.integer? with
  | some m, some n => return .integer (← f m n)
  | _, _ => .error "non-integer argument"

/-- Divides integers. -/
def division (f : Int → Int → Int) (m n : Int) : Except Text Int :=
  if n = 0 then .error "division by zero" else .ok (f m n)

/-- An operator between two operands. -/
structure Operator where
  sign : String
  /-- Whether the right operand counts, given the left one. -/
  goesOn : Value → Bool := fun _ => true
  combine : Value → Value → Except Text Value

def comparison (sign : String) (holds : Ordering → Bool) : Operator :=
  { sign := sign, combine := fun a b => .ok (.ofBool (holds (compare a b))) }

def integral (sign : String) (f : Int → Int → Except Text Int) : Operator :=
  { sign := sign, combine := arithmetic f }

/-- The operators in levels, the loosest first. -/
def operators : List (List Operator) := [
  [{ sign := "|", goesOn := Value.isNull
     combine := fun a b => .ok (if !a.isNull then a else if b.isNull then .ofBool false else b) }],
  [{ sign := "&", goesOn := fun a => !a.isNull
     combine := fun a b => .ok (if a.isNull || b.isNull then .ofBool false else a) }],
  [comparison "<" Ordering.isLT, comparison "<=" Ordering.isLE, comparison "=" Ordering.isEq,
    comparison "==" Ordering.isEq, comparison "!=" Ordering.isNe, comparison ">=" Ordering.isGE,
    comparison ">" Ordering.isGT],
  [integral "+" fun m n => .ok (m + n), integral "-" fun m n => .ok (m - n)],
  [integral "*" fun m n => .ok (m * n), integral "/" (division Int.tdiv),
    integral "%" (division Int.tmod)],
  [{ sign := ":", combine := doMatch }]]

/-! ### Functions -/

/-- The part of a text from a place on, counted from one. -/
def substring (s : Text) (place length : Int) : Text :=
  if place ≤ 0 ∨ length ≤ 0 then [] else (s.drop (place.toNat - 1)).take length.toNat

/-- The place of the first octet of a text that is among some, counted from one, or zero. -/
def place (s among : Text) : Nat :=
  let behind := s.dropWhile fun c => !among.contains c
  if behind.isEmpty then 0 else s.length - behind.length + 1

/-! ### Reading -/

/-- The words that are left, and the one before them. -/
structure Words where
  last : Text
  rest : List Text

/-- A step of reading and evaluating. -/
abbrev Step := StateT Words (Except Text)

def next : Step Text := do
  let words ← get
  match words.rest with
  | [] => throw ("syntax error: missing argument after " ++ quoted words.last)
  | w :: rest =>
    set (Words.mk w rest)
    return w

def takes (sign : String) : Step Bool := do
  if (← get).rest.head? = some sign.toList then
    let _ ← next
    return true
  else return false

/-- Takes the closing parenthesis. -/
def close : Step Unit := do
  let words ← get
  if ← takes ")" then return
  match words.rest with
  | [] => throw ("syntax error: expecting ')' after " ++ quoted words.last)
  | w :: _ => throw ("syntax error: expecting ')' instead of " ++ quoted w)

/-- Evaluates an operand, given how an expression in parentheses is evaluated; the number bounds
how many words there are. -/
def operand (whole : Bool → Step Value) : Nat → Bool → Step Value
  | 0, _ => throw []
  | fuel + 1, counts => do
    let inner := operand whole fuel counts
    if ← takes "+" then return .text (← next)
    else if ← takes "length" then return .integer (← inner).toText.length
    else if ← takes "match" then
      let (a, b) := (← inner, ← inner)
      if counts then doMatch a b else return a
    else if ← takes "index" then
      let (a, b) := (← inner, ← inner)
      return .integer (place a.toText b.toText)
    else if ← takes "substr" then
      let (a, b, c) := (← inner, ← inner, ← inner)
      match b.integer?, c.integer? with
      | some place, some length => return .text (substring a.toText place length)
      | _, _ => return .text []
    else if ← takes "(" then
      let v ← whole counts
      close
      return v
    else if ← takes ")" then throw ("syntax error: unexpected ')'" : Text)
    else return .text (← next)

/-- Goes on behind a left operand with the operators of a level; the number bounds how many there
are. -/
def chain (level : List Operator) (tighter : Bool → Step Value) :
    Nat → Bool → Value → Step Value
  | 0, _, a => return a
  | fuel + 1, counts, a => do
    let sign? := (← get).rest.head?
    match level.find? fun o => some o.sign.toList == sign? with
    | none => return a
    | some o =>
      let _ ← next
      let b ← tighter (counts && o.goesOn a)
      let v ← if counts then o.combine a b else pure a
      chain level tighter fuel counts v

/-- Evaluates an expression of operators in levels. -/
def inLevels (operand : Bool → Step Value) : List (List Operator) → Bool → Step Value
  | [], counts => operand counts
  | level :: tighter, counts => do
    let a ← inLevels operand tighter counts
    chain level (inLevels operand tighter) ((← get).rest.length + 1) counts a

/-- Evaluates an expression; the number bounds how deep parentheses are nested. -/
def whole : Nat → Bool → Step Value
  | 0, _ => throw []
  | fuel + 1, counts => do
    let bound := (← get).rest.length + 1
    inLevels (operand (whole fuel) bound) operators counts

/-- The value of an expression, or what is wrong with it. -/
def evaluate (words : List Text) : Except Text Value := do
  match ← (whole (words.length + 1) true).run ⟨[], words⟩ with
  | (v, ⟨_, []⟩) => return v
  | (_, ⟨_, w :: _⟩) => .error ("syntax error: unexpected argument " ++ quoted w)

end Expression

/-- Prints the value of an expression. -/
def expr : Program := fun _ words => do
  let name := words.headD []
  let signs := words.drop 1
  let signs := if signs.head? = some ['-', '-'] then signs.drop 1 else signs
  if signs.isEmpty then misuse name "missing operand" 2
  match Expression.evaluate signs with
  | .error message => failWith 2 name message
  | .ok v =>
    emit name (v.toText ++ "\n")
    return if v.isNull then 1 else 0

end NinjaPlan.Tool
