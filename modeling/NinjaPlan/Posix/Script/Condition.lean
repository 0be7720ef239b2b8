import NinjaPlan.Files.Access
import NinjaPlan.Posix.Text.Number
import NinjaPlan.Posix.Text.Octets

/-! # Conditions

A condition is a row of words: names of files and questions about them, texts and numbers to be
compared, and signs that join conditions.  Whether a word is a sign or stands for itself depends
on the words around it. -/

namespace NinjaPlan.Script

namespace Condition

/-- A sign between two words. -/
inductive Comparison where
  | same | different | before | after
  | equal | notEqual | greater | greaterEqual | less | lessEqual
  | newer | older | sameFile
deriving DecidableEq

inductive Sign where
  /-- Asks something about the word that follows. -/
  | question (letter : Char)
  | comparison (c : Comparison)
  | bang
  | both
  | either
  | leftParen
  | rightParen
deriving DecidableEq

def questions : Text := "bcdefgGhkLnOprsStuwxz"

/-- How the other signs are written. -/
def spellings : List (String × Sign) := [
  ("=", .comparison .same), ("!=", .comparison .different), ("<", .comparison .before),
  (">", .comparison .after), ("-eq", .comparison .equal), ("-ne", .comparison .notEqual),
  ("-gt", .comparison .greater), ("-ge", .comparison .greaterEqual),
  ("-lt", .comparison .less), ("-le", .comparison .lessEqual), ("-nt", .comparison .newer),
  ("-ot", .comparison .older), ("-ef", .comparison .sameFile), ("!", .bang), ("-a", .both),
  ("-o", .either), ("(", .leftParen), (")", .rightParen)]

/-- The sign that a word may be. -/
def sign? (w : Text) : Option Sign :=
  match w with
  | ['-', c] =>
    if questions.contains c then some (.question c)
    else (spellings.find? fun s => s.1.toList == w).map Prod.snd
  | _ => (spellings.find? fun s => s.1.toList == w).map Prod.snd

/-- Whether a word may be a sign of comparison. -/
def isComparison (w : Text) : Bool :=
  match sign? w with
  | some (.comparison _) => true
  | _ => false

/-- What a word is taken for. -/
inductive Role where
  | nothing
  | operand
  | sign (s : Sign)
deriving DecidableEq

/-- What the first of some words is taken for. -/
def roleOf (words : List Text) : Role :=
  match words with
  | [] => .nothing
  | w :: rest =>
    match sign? w, rest with
    | none, _ => .operand
    | some (.question _), [] => .operand
    | some (.question c), next :: _ :: _ =>
      if isComparison next then .operand else .sign (.question c)
    | some .leftParen, [] => .operand
    | some s, _ => .sign s

def entry? (t : FileTree) (here : Location) (path : Text) : Option Entry :=
  (t.entryAt here (Octets.toBytes path)).toOption

/-- Whether a path names a symbolic link. -/
def isLink (t : FileTree) (here : Location) (path : Text) : Bool :=
  match t.locateParent here (Octets.toBytes path) with
  | .ok (dir, .name name false) =>
    match t.get? (name :: dir) with
    | some (.link _) => true
    | _ => false
  | _ => false

/-- Whether an entry may be run, or looked into. -/
def mayRun : Entry → Bool
  | .directory => true
  | .file _ permissions => permissions &&& 0o111 != 0
  | _ => false

/-- Whether an entry has a bit among its permissions. -/
def hasBit (bit : Nat) : Entry → Bool
  | .file _ permissions => permissions &&& bit != 0
  | _ => false

/-- The answer to a question about a word. -/
def answer (t : FileTree) (here : Location) (letter : Char) (w : Text) : Bool :=
  let entry := entry? t here w
  match letter with
  | 'z' => w.isEmpty
  | 'n' => !w.isEmpty
  | 'h' | 'L' => isLink t here w
  | 'e' | 'r' | 'w' | 'O' | 'G' => entry.isSome
  | 'x' => entry.any mayRun
  | 'd' => entry == some .directory
  | 'f' => entry.any fun e => match e with
    | .file .. => true
    | _ => false
  | 's' => entry.any fun e => match e with
    | .file content _ => !content.isEmpty
    | .directory => true
    | _ => false
  | 'c' => entry.any fun e => match e with
    | .device .null | .device .zero | .device .full => true
    | _ => false
  | 'u' => entry.any (hasBit 0o4000)
  | 'g' => entry.any (hasBit 0o2000)
  | 'k' => entry.any (hasBit 0o1000)
  | _ => false

/-- The number that a word spells. -/
def numberOf (w : Text) : Except Text Int :=
  match Number.decimal? w with
  | some n =>
    if -Int.pow 2 63 ≤ n ∧ n < Int.pow 2 63 then .ok n else .error ("Illegal number: " ++ w)
  | none => .error ("Illegal number: " ++ w)

/-- Compares two words. -/
def compare (t : FileTree) (here : Location) (c : Comparison) (a b : Text) : Except Text Bool := do
  let order (holds : Int → Int → Bool) : Except Text Bool := do
    let x ← numberOf a
    let y ← numberOf b
    return holds x y
  let codes : Text → List Nat := List.map Char.toNat
  match c with
  | .same => return a == b
  | .different => return a != b
  | .before => return decide (codes a < codes b)
  | .after => return decide (codes b < codes a)
  | .equal => order fun x y => x == y
  | .notEqual => order fun x y => x != y
  | .greater => order fun x y => y < x
  | .greaterEqual => order fun x y => y ≤ x
  | .less => order fun x y => x < y
  | .lessEqual => order fun x y => x ≤ y
  | .newer | .older => return false
  | .sameFile =>
    match t.find here (Octets.toBytes a), t.find here (Octets.toBytes b) with
    | .ok x, .ok y => return x == y && (t.get? x).isSome
    | _, _ => return false

/-- A part of a condition that has been judged: whether it holds, and the words from its last one
on. -/
abbrev Judged := Except Text (Bool × List Text)

/-- Judges the first of some words with what belongs to it. -/
def primary (t : FileTree) (here : Location) (whole : Role → List Text → Judged) (role : Role)
    (words : List Text) : Judged := do
  match role, words with
  | .nothing, _ | _, [] => return (false, words)
  | .sign .leftParen, _ :: rest =>
    match roleOf rest with
    | .sign .rightParen => return (false, rest)
    | inner =>
      let (holds, last) ← whole inner rest
      match roleOf (last.drop 1) with
      | .sign .rightParen => return (holds, last.drop 1)
      | _ => .error "closing paren expected"
  | .sign (.question c), w :: rest =>
    match rest with
    | [] => .error (w ++ ": argument expected")
    | x :: _ =>
      if c = 't' then
        let _ ← numberOf x
        return (false, rest)
      else return (answer t here c x, rest)
  | _, w :: rest =>
    match roleOf rest with
    | .sign (.comparison c) =>
      match rest.drop 1 with
      | [] => .error ((rest.headD []) ++ ": argument expected")
      | x :: behind => return (← compare t here c w x, x :: behind)
    | _ => return (!w.isEmpty, words)

/-- Judges a condition that may be denied. -/
def negated (t : FileTree) (here : Location) (whole : Role → List Text → Judged) :
    Nat → Role → List Text → Judged
  | 0, _, words => return (false, words)
  | fuel + 1, role, words => do
    if role = .sign .bang then
      let rest := words.drop 1
      let next := roleOf rest
      let (holds, last) ← negated t here whole fuel next (if next = .nothing then words else rest)
      return (!holds, last)
    else primary t here whole role words

/-- Judges conditions of which all have to hold. -/
def conjunction (t : FileTree) (here : Location) (whole : Role → List Text → Judged) :
    Nat → Role → List Text → Judged
  | 0, _, words => return (true, words)
  | fuel + 1, role, words => do
    let (holds, last) ← negated t here whole (words.length + 1) role words
    match roleOf (last.drop 1) with
    | .sign .both =>
      let (others, last) ← conjunction t here whole fuel (roleOf (last.drop 2)) (last.drop 2)
      return (holds && others, last)
    | _ => return (holds, last)

/-- Judges conditions of which one has to hold. -/
def disjunction (t : FileTree) (here : Location) (whole : Role → List Text → Judged) :
    Nat → Role → List Text → Judged
  | 0, _, words => return (false, words)
  | fuel + 1, role, words => do
    let (holds, last) ← conjunction t here whole (words.length + 1) role words
    match roleOf (last.drop 1) with
    | .sign .either =>
      let (others, last) ← disjunction t here whole fuel (roleOf (last.drop 2)) (last.drop 2)
      return (holds || others, last)
    | _ => return (holds, last)

/-- Judges a condition; the fuel bounds the depth of parentheses. -/
def whole (t : FileTree) (here : Location) : Nat → Role → List Text → Judged
  | 0, _, words => return (false, words)
  | fuel + 1, role, words =>
    disjunction t here (whole t here fuel) (words.length + 1) role words

/-- Judges all of some words, which are taken for what the given role tells of the first. -/
def judgeAs (t : FileTree) (here : Location) (role : Role) (words : List Text) :
    Except Text Bool := do
  let (holds, last) ← whole t here (words.length + 1) role words
  match last with
  | w :: _ :: _ => .error (w ++ ": unexpected operator")
  | _ => return holds

/-- Judges some words; where there are three or four of them, a comparison in the middle, a pair
of parentheses or a denial comes before all else. -/
def judge (t : FileTree) (here : Location) : List Text → Except Text Bool
  | [] => return false
  | [a, op, b] =>
    if isComparison op then judgeAs t here .operand [a, op, b]
    else if a = ['('] ∧ b = [')'] then judgeAs t here (roleOf [op]) [op]
    else if a = ['!'] then return !(← judge t here [op, b])
    else judgeAs t here (roleOf [a, op, b]) [a, op, b]
  | [a, b, c, d] =>
    if a = ['('] ∧ d = [')'] then judgeAs t here (roleOf [b, c]) [b, c]
    else if a = ['!'] then return !(← judge t here [b, c, d])
    else judgeAs t here (roleOf [a, b, c, d]) [a, b, c, d]
  | words => judgeAs t here (roleOf words) words

end Condition
end NinjaPlan.Script
