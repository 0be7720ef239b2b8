import NinjaPlan.Posix.Text.Format
import NinjaPlan.Posix.Text.Kind
import NinjaPlan.Posix.Tool.Basic

/-! # Translating octets

The tool `tr` replaces, removes or squeezes octets.  It is told which by sets: octets in a row,
with ranges, classes and repetitions. -/

namespace NinjaPlan.Tool
namespace Translate

inductive SetItem where
  | octets (s : Text)
  | kind (name : Text) (s : Text)
  /-- An octet that is repeated, or repeated to fill up the set. -/
  | repeated (c : Char) (count : Nat)

def allOctets : Text := (List.range 256).map Char.ofNat

def kindOctets? (name : Text) : Option Text :=
  (Kind.ofName? name).map fun holds =>
    allOctets.filter fun c => holds c && c.toNat < 128

/-- An octet at the start of a set, and whether it was protected. -/
def octetAt (s : Text) : Option ((Char × Bool) × Text) :=
  match s with
  | [] => none
  | '\\' :: rest =>
    match Escape.digits 8 3 rest with
    | [] =>
      match rest with
      | [] => some (('\\', true), [])
      | c :: rest => some ((((Escape.letters.filter (·.1 != 'e')).lookup c).getD c, true), rest)
    | run => some ((Escape.octet (Number.ofDigits 8 run), true), rest.drop run.length)
  | c :: rest => some ((c, false), rest)

/-- The octets of a set with their protection. -/
def octetsOf : Nat → Text → List (Char × Bool)
  | 0, _ => []
  | fuel + 1, s =>
    match octetAt s with
    | none => []
    | some (c, rest) => c :: octetsOf fuel rest

/-- The octets up to a closing pair. -/
def upTo (closer : Char) : List (Char × Bool) → Option (Text × List (Char × Bool))
  | (c, false) :: (']', false) :: rest =>
    if c = closer then some ([], rest)
    else (upTo closer ((']', false) :: rest)).map fun (s, r) => (c :: s, r)
  | (c, _) :: rest => (upTo closer rest).map fun (s, r) => (c :: s, r)
  | [] => none

/-- The count of a repetition and what follows it. -/
def countAt (s : List (Char × Bool)) : Option (Nat × List (Char × Bool)) :=
  let digits := (s.takeWhile fun c => c.1.isDigit).map Prod.fst
  match s.drop digits.length with
  | (']', false) :: rest =>
    let base := if digits.head? = some '0' then 8 else 10
    some (Number.ofDigits base digits, rest)
  | _ => none

/-- The items of a set, or what is wrong with it; the number bounds how many there are. -/
def itemsFrom : Nat → List (Char × Bool) → Except Text (List SetItem)
  | 0, _ => .ok []
  | fuel + 1, s => do
    match s with
    | [] => return []
    | ('[', false) :: (':', false) :: rest =>
      match upTo ':' rest with
      | some (name, rest) =>
        match kindOctets? name with
        | some octets => return .kind name octets :: (← itemsFrom fuel rest)
        | none => .error ("invalid character class " ++ quoted name)
      | none => return .octets ['['] :: (← itemsFrom fuel ((':', false) :: rest))
    | ('[', false) :: ('=', false) :: (c, _) :: ('=', false) :: (']', false) :: rest =>
      return .octets [c] :: (← itemsFrom fuel rest)
    | ('[', false) :: (c, p) :: ('*', false) :: rest =>
      match countAt rest with
      | some (count, rest) => return .repeated c count :: (← itemsFrom fuel rest)
      | none => return .octets ['['] :: (← itemsFrom fuel ((c, p) :: ('*', false) :: rest))
    | (a, _) :: ('-', false) :: (b, _) :: rest =>
      if b.toNat < a.toNat then
        .error ("range-endpoints of " ++ bareQuoted [a, '-', b] ++
          " are in reverse collating sequence order")
      else
        let range := (List.range (b.toNat + 1 - a.toNat)).map fun k => Char.ofNat (a.toNat + k)
        return .octets range :: (← itemsFrom fuel rest)
    | (c, _) :: rest => return .octets [c] :: (← itemsFrom fuel rest)

def items (s : Text) : Except Text (List SetItem) :=
  let octets := octetsOf (s.length + 1) s
  itemsFrom (octets.length + 1) octets

/-- The octets of an item, with a repetition that fills up repeated a number of times. -/
def SetItem.expand (fill : Nat) : SetItem → Text
  | octets s => s
  | kind _ s => s
  | repeated c 0 => List.replicate fill c
  | repeated c n => List.replicate n c

/-- The octets of items, filled up to a length. -/
def expandTo (length : Nat) (items : List SetItem) : Text :=
  let least := (items.flatMap (SetItem.expand 0)).length
  items.flatMap (SetItem.expand (length - least))

/-- Whether a class is one of letters of one case. -/
def isCase (name : Text) : Bool := name == "upper".toList || name == "lower".toList

def secondFault? (first second : List SetItem) : Option Text :=
  let named (s : List SetItem) : List Text := s.filterMap fun i => match i with
    | .kind name _ => some name
    | _ => none
  if (named second).any fun n => !isCase n then
    some ("when translating, the only character classes that may appear in\n" ++
      "string2 are 'upper' and 'lower'").toList
  else if !(named second).isEmpty ∧ (named first).filter isCase = [] then
    some "misaligned [:upper:] and/or [:lower:] construct"
  else none

/-- What octets are replaced by: the octets of one set by those of another, whose last one stands
for all that are missing.  Of several for one octet the last one counts. -/
def table (first second : Text) : List (Char × Char) :=
  let filled := match second.getLast? with
    | some c => second ++ List.replicate (first.length - second.length) c
    | none => first
  first.zip filled

/-- The text in which octets of a set that repeat stand once. -/
def squeeze (set : Char → Bool) : Option Char → Text → Text
  | _, [] => []
  | last, c :: rest =>
    if last = some c ∧ set c then squeeze set last rest else c :: squeeze set (some c) rest

/-- Whether an octet is in a set, as a table that is looked up fast. -/
def membership (s : Text) : Char → Bool :=
  let marks := s.foldl (fun (a : Array Bool) c => a.setIfInBounds c.toNat true)
    (Array.replicate 256 false)
  fun c => marks.getD c.toNat false

/-- What an octet is replaced by, as a table that is looked up fast. -/
def replacement (pairs : List (Char × Char)) : Char → Char :=
  let start := (List.range 256).toArray.map Char.ofNat
  let marks := pairs.foldl (fun (a : Array Char) (c, d) => a.setIfInBounds c.toNat d) start
  fun c => marks.getD c.toNat c

end Translate

/-- Prints standard input with octets replaced, removed or squeezed. -/
def tr : Program := fun _ words => do
  let shape : Shape :=
    { letters := "cCdst", mixed := false
      names := [("complement", 'c'), ("delete", 'd'), ("squeeze-repeats", 's'),
        ("truncate-set1", 't')] }
  let call ← readCall shape words
  let name := call.name
  let deletes := call.has 'd'
  let squeezes := call.has 's'
  let wrong {α : Type} (message : Text) : Process α := failWith 1 name message
  let set (s : Text) : Process (List Translate.SetItem) :=
    match Translate.items s with
    | .ok items => return items
    | .error message => wrong message
  let two := if deletes then squeezes else !squeezes
  match call.operands with
  | [] => misuse name "missing operand"
  | [first] =>
    if two then
      misuse name ("missing operand after " ++ quoted first ++
        if deletes then "\nTwo strings must be given when both deleting and squeezing repeats."
        else "\nTwo strings must be given when translating.")
  | [_, second] =>
    if deletes ∧ !squeezes then
      misuse name ("extra operand " ++ quoted second ++
        "\nOnly one string may be given when deleting without squeezing repeats.")
  | _ :: _ :: extra :: _ => misuse name ("extra operand " ++ quoted extra)
  let firstItems ← set (call.operands.headD [])
  let firstSet := Translate.expandTo 0 firstItems
  let firstSet := if call.has 'c' ∨ call.has 'C' then
      let holds := Translate.membership firstSet
      Translate.allOctets.filter fun c => !holds c
    else firstSet
  let input ← match ← Process.read 0 with
    | .ok input => pure input
    | .error e => failWith 1 name ("read error: " ++ e.description)
  match call.operands.drop 1 with
  | [] =>
    let holds := Translate.membership firstSet
    emit name (if deletes then input.filter fun c => !holds c
      else Translate.squeeze holds none input)
  | second :: _ =>
    let secondItems ← set second
    if deletes then
      let holds := Translate.membership firstSet
      let squeezed := Translate.membership (Translate.expandTo 0 secondItems)
      emit name (Translate.squeeze squeezed none (input.filter fun c => !holds c))
    else
      match Translate.secondFault? firstItems secondItems with
      | some message => wrong message
      | none => pure ()
      let secondSet := Translate.expandTo firstSet.length secondItems
      let firstSet := if call.has 't' then firstSet.take secondSet.length else firstSet
      if secondSet.isEmpty ∧ !firstSet.isEmpty then
        wrong "when not truncating set1, string2 must be non-empty"
      let replaced := input.map (Translate.replacement (Translate.table firstSet secondSet))
      emit name (if squeezes then
          Translate.squeeze (Translate.membership secondSet) none replaced
        else replaced)
  return 0

end NinjaPlan.Tool
