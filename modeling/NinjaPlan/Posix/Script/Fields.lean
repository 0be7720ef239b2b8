import NinjaPlan.Files.Access
import NinjaPlan.Posix.Script.Pattern
import NinjaPlan.Posix.Text.Octets

/-! # Fields and file names

What a word stands for is a row of items: octets with their protection, and marks where quotes
were or where one argument ends and the next begins.

`fields` cuts the items at separators that came from a substitution, and `fileNames` puts the
names of the files that a field matches in its place. -/

namespace NinjaPlan.Script

/-- An item of what a word stands for. -/
inductive Item where
  /-- An octet, whether it is quoted, and whether a field may be cut at it. -/
  | octet (c : Char) (quoted cuts : Bool)
  /-- Keeps its field, even if the field holds nothing else. -/
  | keep
  /-- One argument ends and the next begins. -/
  | next
  /-- One argument ends and the next begins; those that are empty are left out. -/
  | nextIfAny
  /-- A substitution begins. -/
  | seam
deriving DecidableEq

namespace Item

/-- The octets of a text, all of one protection. -/
def octets (s : Text) (quoted cuts : Bool) : List Item := s.map fun c => .octet c quoted cuts

def text (items : List Item) : Text := items.filterMap fun item =>
  match item with
  | .octet c .. => some c
  | _ => none

/-- The octets of items, as those of a pattern. -/
def patternChars (items : List Item) : List PatternChar := items.filterMap fun item =>
  match item with
  | .octet c quoted _ => some ⟨c, quoted⟩
  | _ => none

end Item

/-! ### Cutting -/

/-- How far items have been cut into fields. -/
structure Cutting where
  /-- The complete fields, last first. -/
  done : List (List Item) := []
  /-- The field that has begun, last item first. -/
  current : List Item := []
  /-- The last field ended at a blank, so that more separators may follow. -/
  afterBlank : Bool := false

namespace Cutting

/-- Ends the field that has begun. -/
def close (s : Cutting) (afterBlank : Bool) : Cutting :=
  { done := s.current.reverse :: s.done, current := [], afterBlank := afterBlank }

def separate (s : Cutting) (isBlank : Bool) : Cutting :=
  if s.afterBlank then { s with afterBlank := isBlank }
  else if s.current.isEmpty && isBlank then s
  else s.close isBlank

def step (separators : Text) (s : Cutting) (item : Item) : Cutting :=
  match item with
  | .octet c _ true =>
    if separators.contains c then s.separate (c == ' ' || c == '\t' || c == '\n')
    else { s with current := item :: s.current, afterBlank := false }
  | .octet .. | .keep => { s with current := item :: s.current, afterBlank := false }
  | .next => s.close false
  | .nextIfAny => s.separate true
  | .seam => { s with afterBlank := false }

/-- The fields, with the one that has begun unless it is empty. -/
def finish (s : Cutting) : List (List Item) :=
  (if s.current.isEmpty then s.done else s.current.reverse :: s.done).reverse

end Cutting

def fields (separators : Text) (items : List Item) : List (List Item) :=
  (items.foldl (Cutting.step separators) {}).finish

/-! ### File names -/

def segments (s : List PatternChar) : List (List PatternChar) :=
  s.foldr (fun c rest =>
    if c.char = '/' then [] :: rest
    else match rest with
      | [] => [[c]]
      | p :: ps => (c :: p) :: ps) [[]]

/-- The directory that a path so far leads to. -/
def directoryOf? (t : FileTree) (here : Location) (before : Text) : Option Location :=
  if before.isEmpty then t.directoryAt here [dot] else t.directoryAt here (Octets.toBytes before)

/-- The names in a directory that match a segment of a pattern.  A dot at the start is only
matched by a dot. -/
def matchingNames (t : FileTree) (dir : Location) (segment : List PatternChar) : List Text :=
  let pattern := Pattern.ofChars segment
  let names : List Text :=
    ['.'] :: ['.', '.'] :: (t.children dir).map fun (name, _) => Octets.ofBytes name
  names.filter fun name =>
    (name.head? != some '.' || (Pattern.resolveBackslashes segment).head?.any (·.char == '.')) &&
      Pattern.isMatch pattern name

/-- Whether a path names an entry; a link is taken for itself. -/
def isThere (t : FileTree) (here : Location) (path : Text) : Bool :=
  let bytes := Octets.toBytes path
  match t.locateParent here bytes with
  | .error _ => false
  | .ok (dir, .name name false) => (t.get? (name :: dir)).isSome
  | .ok (_, .name _ true) => (t.directoryAt here bytes).isSome
  | .ok _ => true

/-- The texts that the segments of a pattern may stand for, behind the path so far; each is a path
of which all but the last name is there. -/
def expansions (t : FileTree) (here : Location) : Text → List (List PatternChar) → List Text
  | before, [] => [before]
  | before, segment :: rest =>
    let slash : Text := if rest.isEmpty then [] else ['/']
    if Pattern.isMagic segment then
      match directoryOf? t here before with
      | none => []
      | some dir =>
        (matchingNames t dir segment).flatMap fun name =>
          expansions t here (before ++ name ++ slash) rest
    else
      let name := Pattern.textOf (Pattern.resolveBackslashes segment)
      expansions t here (before ++ name ++ slash) rest

/-- The paths of entries that match the segments of a pattern. -/
def matchingPaths (t : FileTree) (here : Location) (pattern : List (List PatternChar)) :
    List Text :=
  (expansions t here [] pattern).filter (isThere t here)

def inOrder (texts : List Text) : List Text :=
  texts.mergeSort fun a b => !b.lex a fun c d => decide (c.toNat < d.toNat)

/-- The names of the files that a field matches, in order; the field itself if there are none. -/
def fileNames (t : FileTree) (here : Location) (field : List Item) : List Text :=
  let chars := Item.patternChars field
  if Pattern.isMagic chars then
    match inOrder (matchingPaths t here (segments chars)) with
    | [] => [Item.text field]
    | found => found
  else [Item.text field]

end NinjaPlan.Script
