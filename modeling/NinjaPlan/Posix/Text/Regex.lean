import NinjaPlan.Posix.Text.Kind

/-! # Regular expressions

A regular expression stands for the texts that it matches.  It is written in the basic manner,
where a backslash gives most signs their meaning, or in the extended one, where it takes it away.

`Regex.ends` gives all the places where a match may end, the preferred ones first; `search` takes
the first match in a text, and of those that start there the longest. -/

namespace NinjaPlan

/-- A condition on a place in a text. -/
inductive Anchor where
  | start
  | finish
  | lineStart
  | lineEnd
  | wordStart
  | wordEnd
  /-- The start or the end of a word. -/
  | wordEdge
  | noWordEdge
  | notBehindWord
  | notBeforeWord
deriving DecidableEq

/-- A regular expression. -/
inductive Regex where
  | empty
  | octet (holds : Char → Bool)
  | anchor (a : Anchor)
  | both (first second : Regex)
  | either (first second : Regex)
  | repeated (body : Regex) (least : Nat) (most : Option Nat)
  | group (number : Nat) (body : Regex)
  /-- What a group has matched. -/
  | again (number : Nat)

namespace Regex

/-! ### Matching -/

/-- A place in a text, and what groups have matched on the way there. -/
structure Spot where
  /-- The text before the place, last octet first. -/
  before : Text
  rest : Text
  groups : List (Nat × Text) := []

/-- Whether an octet belongs to words. -/
def isWord (c : Char) : Bool := c.isAlphanum || c == '_'

/-- Whether a place meets a condition. -/
def meets (a : Anchor) (s : Spot) : Bool :=
  let left := s.before.head?.any isWord
  let right := s.rest.head?.any isWord
  match a with
  | .start => s.before.isEmpty
  | .finish => s.rest.isEmpty
  | .lineStart => s.before.head?.all (· == '\n')
  | .lineEnd => s.rest.head?.all (· == '\n')
  | .wordStart => !left && right
  | .wordEnd => left && !right
  | .wordEdge => left != right
  | .noWordEdge => left == right
  | .notBehindWord => !left
  | .notBeforeWord => !right

/-- The place behind a number of octets. -/
def Spot.advance (s : Spot) (n : Nat) : Spot :=
  { s with before := (s.rest.take n).reverse ++ s.before, rest := s.rest.drop n }

/-- The places without those that are there already. -/
def distinctSpots (spots : List Spot) : List Spot :=
  spots.foldr (fun s kept =>
    s :: kept.filter fun t => t.rest.length != s.rest.length || t.groups != s.groups) []

/-- The places behind repetitions of something, those behind more of them first.  A repetition
beyond the least number must go on in the text; the first number bounds how often it can. -/
def repeatEnds (one : Spot → List Spot) : Nat → Nat → Option Nat → Spot → List Spot
  | 0, least, _, s => if least = 0 then [s] else []
  | fuel + 1, least, most, s =>
    let further := if most = some 0 then []
      else (one s).filter fun t => 0 < least || t.rest.length < s.rest.length
    let longer := further.flatMap fun t =>
      repeatEnds one fuel (least - 1) (most.map (· - 1)) t
    distinctSpots (longer ++ if least = 0 then [s] else [])

/-- The places where a match that starts at a place may end. -/
def ends : Regex → Spot → List Spot
  | empty, s => [s]
  | octet holds, s =>
    match s.rest with
    | c :: _ => if holds c then [s.advance 1] else []
    | [] => []
  | anchor a, s => if meets a s then [s] else []
  | both first second, s => distinctSpots ((ends first s).flatMap (ends second))
  | either first second, s => distinctSpots (ends first s ++ ends second s)
  | repeated body least most, s => repeatEnds (ends body) (s.rest.length + least) least most s
  | group number body, s =>
    (ends body s).map fun t =>
      let matched := s.rest.take (s.rest.length - t.rest.length)
      { t with groups := (number, matched) :: t.groups.filter (·.1 != number) }
  | again number, s =>
    match s.groups.lookup number with
    | none => []
    | some text => if text.isPrefixOf s.rest then [s.advance text.length] else []

/-- The longest of some matches, the preferred one if there are several. -/
def longest : List Spot → Option Spot
  | [] => none
  | s :: rest =>
    match longest rest with
    | none => some s
    | some t => if t.rest.length < s.rest.length then some t else some s

structure Match where
  /-- The text before the match, last octet first. -/
  before : Text
  text : Text
  after : Text
  groups : List (Nat × Text)

def matchAt (r : Regex) (s : Spot) : Option Match :=
  (longest (ends r s)).map fun t =>
    ⟨s.before, s.rest.take (s.rest.length - t.rest.length), t.rest, t.groups⟩

/-- The first match in what is left of a text. -/
def searchFrom (r : Regex) : Text → Text → Option Match
  | before, [] => matchAt r ⟨before, [], []⟩
  | before, c :: rest =>
    match matchAt r ⟨before, c :: rest, []⟩ with
    | some m => some m
    | none => searchFrom r (c :: before) rest

/-- The first match in a text. -/
def search (r : Regex) (s : Text) : Option Match := searchFrom r [] s

/-! ### Combinations -/

/-- The expression that stands for a text itself, in either case if that does not count. -/
def ofText (folds : Bool) (s : Text) : Regex :=
  s.foldr (fun c r => both (octet fun d =>
    if folds then c.toLower == d.toLower else c == d) r) empty

/-- The expression that stands for what one of some stands for. -/
def anyOf : List Regex → Regex
  | [] => octet fun _ => false
  | [r] => r
  | r :: rest => either r (anyOf rest)

/-- The matches of an expression between certain places. -/
def between (a b : Anchor) (r : Regex) : Regex := both (anchor a) (both r (anchor b))

/-! ### Signs -/

/-- How regular expressions are written. -/
structure Style where
  /-- In the extended manner. -/
  extended : Bool := false
  /-- The case of letters does not count. -/
  folds : Bool := false
  /-- A repetition of nothing does not count, and an interval that is none stands for itself. -/
  lenient : Bool := false
  /-- A caret and a dollar also stand for the start and the end of a line within the text. -/
  lines : Bool := false

/-- A sign of a regular expression. -/
inductive Sign where
  | octet (holds : Char → Bool)
  | star
  | plus
  | question
  | interval (least : Nat) (most : Option Nat)
  | opening
  | closing
  | bar
  | caret
  | dollar
  | anchor (a : Anchor)
  | again (number : Nat)

/-- The octet that stands for itself, in either case if that does not count. -/
def literal (style : Style) (c : Char) : Char → Bool :=
  if style.folds then fun d => c.toLower == d.toLower else fun d => c == d

/-- What is wrong with a set that is not closed. -/
def unmatchedSet : Text := "Unmatched [, [^, [:, [., or [="

/-- What comes before a closing pair, and what follows it. -/
def upTo (closer : Char) : Text → Option (Text × Text)
  | [] => none
  | c :: rest =>
    if c = closer ∧ rest.head? = some ']' then some ([], rest.drop 1)
    else (upTo closer rest).map fun (s, r) => (c :: s, r)

/-- The members of a set up to its bracket, which cannot be the first; the number bounds how many
there are. -/
def membersFrom : Nat → Bool → Text → Except Text ((Char → Bool) × Text)
  | 0, _, _ => .error unmatchedSet
  | fuel + 1, isFirst, s => do
    let go (holds : Char → Bool) (rest : Text) : Except Text ((Char → Bool) × Text) := do
      let (others, rest) ← membersFrom fuel false rest
      return (fun c => holds c || others c, rest)
    match s with
    | [] => .error unmatchedSet
    | ']' :: rest => if isFirst then go (· == ']') rest else return (fun _ => false, rest)
    | '[' :: ':' :: rest =>
      match upTo ':' rest with
      | none => .error unmatchedSet
      | some (name, rest) =>
        match Kind.ofName? name with
        | some holds => go holds rest
        | none => .error "Invalid character class name"
    | '[' :: '=' :: c :: '=' :: ']' :: rest | '[' :: '.' :: c :: '.' :: ']' :: rest =>
      go (· == c) rest
    | a :: '-' :: b :: rest =>
      if b = ']' then go (· == a) ('-' :: b :: rest)
      else if b.toNat < a.toNat then .error "Invalid range end"
      else go (fun c => a.toNat ≤ c.toNat && c.toNat ≤ b.toNat) rest
    | a :: rest => go (· == a) rest

/-- The set behind an opening bracket. -/
def setAt (style : Style) (s : Text) : Except Text ((Char → Bool) × Text) := do
  let (negated, inner) := match s with
    | '^' :: rest => (true, rest)
    | _ => (false, s)
  if inner.isEmpty then .error "Invalid regular expression"
  let (holds, rest) ← membersFrom (inner.length + 1) true inner
  let folded (c : Char) : Bool :=
    holds c || (style.folds && (holds c.toLower || holds c.toUpper))
  return (fun c => folded c != negated, rest)

/-- What comes before the comma or the sign that closes an interval, whether there is a comma, and
what follows it. -/
def boundAt (style : Style) : Text → Option (Text × Bool × Text)
  | [] => none
  | c :: rest =>
    if c = ',' then some ([], true, rest)
    else if c = '\x7d' ∧ style.extended then some ([], false, rest)
    else if c = '\\' ∧ !style.extended ∧ rest.head? = some '\x7d' then some ([], false, rest.drop 1)
    else (boundAt style rest).map fun (s, comma, rest) => (c :: s, comma, rest)

/-- The interval behind an opening brace, or what is wrong with it; `none` if the brace stands for
itself. -/
def intervalAt (style : Style) (s : Text) : Except Text (Option (Nat × Option Nat × Text)) := do
  let invalid := "Invalid content of \\\x7b\\\x7d".toList
  let self (message : Text) : Except Text (Option (Nat × Option Nat × Text)) :=
    if style.lenient && style.extended then .ok none else .error message
  match boundAt style s with
  | none => self "Unmatched \\\x7b"
  | some (first, comma, rest) =>
    match (if comma then boundAt style rest else some (first, false, rest)) with
    | none => self "Unmatched \\\x7b"
    | some (second, furtherComma, rest) =>
      let areNumbers := (first ++ second).all Char.isDigit
      if furtherComma ∨ !areNumbers ∨ (first.isEmpty ∧ !comma) then self invalid
      else
        let least := Number.ofDigits 10 first
        let most? := if second.isEmpty then none else some (Number.ofDigits 10 second)
        if most?.any (· < least) then .error invalid
        else if 0x7FFF < max least (most?.getD 0) then .error "Regular expression too big"
        else return some (least, most?, rest)

/-- The sign behind a backslash that both manners know. -/
def commonSign? (c : Char) : Option Sign :=
  match c with
  | 'w' => some (.octet isWord)
  | 'W' => some (.octet fun c => !isWord c)
  | 's' => some (.octet Number.isSpace)
  | 'S' => some (.octet fun c => !Number.isSpace c)
  | 'b' => some (.anchor .wordEdge)
  | 'B' => some (.anchor .noWordEdge)
  | '<' => some (.anchor .wordStart)
  | '>' => some (.anchor .wordEnd)
  | '\x60' => some (.anchor .start)
  | '\x27' => some (.anchor .finish)
  | _ => if '1' ≤ c ∧ c ≤ '9' then some (.again (c.toNat - '0'.toNat)) else none

/-- The sign that a backslash makes of an octet in the basic manner, and that an octet is by
itself in the extended one. -/
def specialSign? (c : Char) : Option Sign :=
  match c with
  | '(' => some .opening
  | ')' => some .closing
  | '|' => some .bar
  | '+' => some .plus
  | '?' => some .question
  | _ => none

/-- The signs of a text, or what is wrong with it; the number bounds how many there are. -/
def signsFrom (style : Style) : Nat → Text → Except Text (List Sign)
  | 0, _ => .ok []
  | fuel + 1, s => do
    let go (sign : Sign) (rest : Text) : Except Text (List Sign) :=
      return sign :: (← signsFrom style fuel rest)
    let self (c : Char) : Sign := .octet (literal style c)
    match s with
    | [] => return []
    | ['\\'] => .error "Trailing backslash"
    | '\\' :: c :: rest =>
      match commonSign? c, style.extended with
      | some sign, _ => go sign rest
      | none, true => go (self c) rest
      | none, false =>
        if c = '\x7b' then
          match ← intervalAt style rest with
          | some (least, most, rest) => go (.interval least most) rest
          | none => go (self c) rest
        else go ((specialSign? c).getD (self c)) rest
    | '.' :: rest => go (.octet fun _ => true) rest
    | '[' :: rest =>
      let (holds, rest) ← setAt style rest
      go (.octet holds) rest
    | '*' :: rest => go .star rest
    | '^' :: rest => go .caret rest
    | '$' :: rest => go .dollar rest
    | c :: rest =>
      if !style.extended then go (self c) rest
      else if c = '\x7b' then
        match ← intervalAt style rest with
        | some (least, most, rest) => go (.interval least most) rest
        | none => go (self c) rest
      else go ((specialSign? c).getD (self c)) rest

/-! ### Reading -/

/-- A part that has been read, the signs behind it, and the number of groups that have begun. -/
abbrev Parsed := Except Text (Regex × List Sign × Nat)

/-- Whether a part of an expression ends before the signs. -/
def endsHere (signs : List Sign) : Bool :=
  match signs with
  | [] | .bar :: _ | .closing :: _ => true
  | _ => false

/-- Puts repetitions on what has been read. -/
def repetitions (r : Regex) : List Sign → Regex × List Sign
  | .star :: rest => repetitions (.repeated r 0 none) rest
  | .plus :: rest => repetitions (.repeated r 1 none) rest
  | .question :: rest => repetitions (.repeated r 0 (some 1)) rest
  | .interval least most :: rest => repetitions (.repeated r least most) rest
  | rest => (r, rest)

/-- Reads a part without alternatives, given the reader of what is in groups. -/
def sequenceFrom (style : Style) (whole : Nat → List Sign → Parsed) :
    Nat → Bool → Nat → List Sign → Parsed
  | 0, _, groups, signs => .ok (.empty, signs, groups)
  | fuel + 1, isFirst, groups, signs =>
    if endsHere signs then .ok (.empty, signs, groups)
    else do
      let self (c : Char) : Regex := .octet (literal style c)
      let repeated (c : Char) (rest : List Sign) : Except Text (Regex × List Sign × Nat × Bool) :=
        if !style.extended then .ok (self c, rest, groups, true)
        else if style.lenient then .ok (.empty, rest, groups, false)
        else .error "Invalid preceding regular expression"
      let (atom, rest, groups, repeats) ← match signs with
        | .octet holds :: rest => pure (Regex.octet holds, rest, groups, true)
        | .anchor a :: rest => pure (Regex.anchor a, rest, groups, true)
        | .again n :: rest =>
          if n ≤ groups then pure (Regex.again n, rest, groups, true)
          else .error "Invalid back reference"
        | .caret :: rest =>
          if isFirst ∨ style.extended then
            pure (.anchor (if style.lines then .lineStart else .start), rest, groups, false)
          else pure (self '^', rest, groups, true)
        | .dollar :: rest =>
          if endsHere rest ∨ style.extended then
            pure (.anchor (if style.lines then .lineEnd else .finish), rest, groups, true)
          else pure (self '$', rest, groups, true)
        | .opening :: rest =>
          let number := groups + 1
          let (body, rest, groups) ← whole number rest
          match rest with
          | .closing :: rest => pure (Regex.group number body, rest, groups, true)
          | _ => .error "Unmatched ( or \\("
        | .star :: rest => repeated '*' rest
        | .plus :: rest => repeated '+' rest
        | .question :: rest => repeated '?' rest
        | .interval .. :: rest =>
          if style.lenient then pure (.empty, rest, groups, false)
          else .error "Invalid preceding regular expression"
        | rest => pure (.empty, rest, groups, false)
      let (atom, rest) := if repeats then repetitions atom rest else (atom, rest)
      let (others, rest, groups) ← sequenceFrom style whole fuel (!repeats) groups rest
      return (.both atom others, rest, groups)

def alternativesFrom (style : Style) (whole : Nat → List Sign → Parsed) :
    Nat → Nat → List Sign → Parsed
  | 0, groups, signs => .ok (.empty, signs, groups)
  | fuel + 1, groups, signs => do
    let (first, rest, groups) ← sequenceFrom style whole (signs.length + 1) true groups signs
    match rest with
    | .bar :: rest =>
      let (others, rest, groups) ← alternativesFrom style whole fuel groups rest
      return (.either first others, rest, groups)
    | _ => return (first, rest, groups)

/-- Reads an expression; the fuel bounds how deep groups are nested. -/
def wholeFrom (style : Style) : Nat → Nat → List Sign → Parsed
  | 0, groups, signs => .ok (.empty, signs, groups)
  | fuel + 1, groups, signs =>
    alternativesFrom style (wholeFrom style fuel) (signs.length + 1) groups signs

/-- The regular expression that a text spells, with the number of its groups, or what is wrong
with the text. -/
def parse (style : Style) (s : Text) : Except Text (Regex × Nat) := do
  let signs ← signsFrom style (s.length + 1) s
  match ← wholeFrom style (signs.length + 1) 0 signs with
  | (r, [], groups) => return (r, groups)
  | _ => .error "Unmatched ) or \\)"

end Regex
end NinjaPlan
