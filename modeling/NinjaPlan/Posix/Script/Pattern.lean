import NinjaPlan.Posix.Text.Kind

/-! # Patterns

A pattern stands for the texts that it matches: a star for any octets, a question mark for one,
and brackets for one of a set.  An octet that is quoted, or that follows a backslash, stands for
itself. -/

namespace NinjaPlan.Script

/-- An octet of a pattern, and whether it is quoted. -/
structure PatternChar where
  char : Char
  quoted : Bool
deriving DecidableEq

/-- A member of a set of octets. -/
inductive Member where
  | single (c : Char)
  | range (first last : Char)
  | kind (holds : Char → Bool)

inductive PatternItem where
  | literal (c : Char)
  | any
  | many
  | oneOf (negated : Bool) (members : List Member)

abbrev Pattern := List PatternItem

/-- Whether a set of members holds an octet. -/
def Member.holds (c : Char) : Member → Bool
  | single d => c == d
  | range first last => first.toNat ≤ c.toNat && c.toNat ≤ last.toNat
  | kind holds => holds c

namespace Pattern

/-- Protects the octets behind backslashes that are not quoted. -/
def resolveBackslashes : List PatternChar → List PatternChar
  | ⟨'\\', false⟩ :: ⟨c, _⟩ :: rest => ⟨c, true⟩ :: resolveBackslashes rest
  | ⟨'\\', false⟩ :: [] => [⟨'\\', true⟩]
  | c :: rest => c :: resolveBackslashes rest
  | [] => []

def textOf (s : List PatternChar) : Text := s.map PatternChar.char

/-- The kind of octets that is named at the start, with the rest behind it. -/
def kindAt? (s : List PatternChar) : Option (Member × List PatternChar) :=
  Kind.table.findSome? fun (name, holds) =>
    let written : Text := ":" ++ name.toList ++ ":]"
    if written.isPrefixOf (textOf s) then some (.kind holds, s.drop written.length) else none

/-- The members of a set up to the bracket that closes it; the first octet cannot close it.  The
number bounds how many members there are. -/
def membersFrom : Nat → Bool → List PatternChar → Option (List Member × List PatternChar)
  | 0, _, _ => none
  | _, _, [] => none
  | fuel + 1, isFirst, c :: rest =>
    if c = ⟨']', false⟩ ∧ !isFirst then some ([], rest)
    else
      let go (m : Member) (rest : List PatternChar) : Option (List Member × List PatternChar) :=
        (membersFrom fuel false rest).map fun (ms, rest) => (m :: ms, rest)
      match (if c = ⟨'[', false⟩ then kindAt? rest else none) with
      | some (m, rest) => go m rest
      | none =>
        match rest with
        | ⟨'-', false⟩ :: last :: behind =>
          if last = ⟨']', false⟩ then go (.single c.char) rest
          else go (.range c.char last.char) behind
        | _ => go (.single c.char) rest

/-- The set behind an opening bracket, if it is closed. -/
def setAt? (s : List PatternChar) : Option (PatternItem × List PatternChar) :=
  let (negated, inner) := match s with
    | ⟨'!', false⟩ :: rest => (true, rest)
    | _ => (false, s)
  (membersFrom (inner.length + 1) true inner).map fun (ms, rest) => (.oneOf negated ms, rest)

/-- The pattern that octets spell; the number bounds how many items it has. -/
def ofCharsFrom : Nat → List PatternChar → Pattern
  | 0, _ => []
  | _, [] => []
  | fuel + 1, ⟨c, quoted⟩ :: rest =>
    if quoted then .literal c :: ofCharsFrom fuel rest
    else if c = '*' then .many :: ofCharsFrom fuel rest
    else if c = '?' then .any :: ofCharsFrom fuel rest
    else if c = '[' then
      match setAt? rest with
      | some (item, rest) => item :: ofCharsFrom fuel rest
      | none => .literal c :: ofCharsFrom fuel rest
    else .literal c :: ofCharsFrom fuel rest

/-- The pattern that octets spell. -/
def ofChars (s : List PatternChar) : Pattern :=
  let resolved := resolveBackslashes s
  ofCharsFrom resolved.length resolved

/-- Whether the octets hold something that does not stand for itself. -/
def isMagic (s : List PatternChar) : Bool :=
  s.any fun c => !c.quoted && (c.char == '*' || c.char == '?' || c.char == '[')

def isMatch : Pattern → Text → Bool
  | [], [] => true
  | [], _ :: _ => false
  | .many :: ps, [] => isMatch ps []
  | .many :: ps, c :: cs => isMatch ps (c :: cs) || isMatch (.many :: ps) cs
  | .any :: ps, _ :: cs => isMatch ps cs
  | .literal d :: ps, c :: cs => c == d && isMatch ps cs
  | .oneOf negated members :: ps, c :: cs =>
    (members.any (Member.holds c) != negated) && isMatch ps cs
  | _ :: _, [] => false
termination_by p s => (p.length, s.length)

/-- The numbers of octets after which a text can be cut, the ends included. -/
def cuts (s : Text) : List Nat := List.range (s.length + 1)

/-- The text without what a pattern matches at its start. -/
def trimStart (p : Pattern) (longest : Bool) (s : Text) : Text :=
  let order := if longest then (cuts s).reverse else cuts s
  match order.find? fun n => isMatch p (s.take n) with
  | some n => s.drop n
  | none => s

/-- The text without what a pattern matches at its end. -/
def trimEnd (p : Pattern) (longest : Bool) (s : Text) : Text :=
  let order := if longest then cuts s else (cuts s).reverse
  match order.find? fun n => isMatch p (s.drop n) with
  | some n => s.take n
  | none => s

/-- Texts without what a pattern matches at the start of the first one.  Nothing is left of any if
the longest match is wanted and the pattern matches the whole of the first of several. -/
def trimStartOfAll (p : Pattern) (longest : Bool) : List Text → List Text
  | [] => []
  | [s] => [trimStart p longest s]
  | s :: rest => if longest && isMatch p s then [[]] else trimStart p longest s :: rest

def matchesEnd (p : Pattern) (s : Text) : Bool := (cuts s).any fun n => isMatch p (s.drop n)

/-- Texts up to the last one of which a pattern matches an end, without the shortest match. -/
def trimLast? (p : Pattern) : List Text → Option (List Text)
  | [] => none
  | s :: rest =>
    match trimLast? p rest with
    | some trimmed => some (s :: trimmed)
    | none => if matchesEnd p s then some [trimEnd p false s] else none

/-- Texts without what a pattern matches at an end, and without those that follow: the longest
match is looked for in the first text alone, the shortest in the last ones before others. -/
def trimEndOfAll (p : Pattern) (longest : Bool) (all : List Text) : List Text :=
  if longest then
    match all with
    | s :: rest => if matchesEnd p s then [trimEnd p true s] else s :: rest
    | [] => []
  else (trimLast? p all).getD all

end Pattern
end NinjaPlan.Script
