import NinjaPlan.Text.Basic

/-! # Paths

A path keeps the text it was written with and is understood through its components: a slash at
the start is the root, empty segments and `.` segments vanish, except a `.` that opens a relative
path, and `..` is kept.  Two paths are the same, `p ≈ q`, if their components are equal, so
`a//b`, `a/./b` and `a/b/` are the same and `./a` differs from `a`.

* `segments` and `bare` split the text; `components` gives the meaning;
* `join` puts one path below another, `stripPrefix?` takes the lower part back;
* `fileName`, `parent` look at the last component. -/

namespace NinjaPlan

/-- A path, as it is written. -/
structure Path where
  text : Text
deriving DecidableEq, Inhabited

/-- A string literal stands for the path it spells. -/
instance Path.ofString : Coe String Path := ⟨fun s => ⟨s.toList⟩⟩

namespace Path

/-! ### Components -/

inductive Component where
  /-- The slash that makes a path absolute. -/
  | root
  /-- The `.` that opens a relative path. -/
  | current
  /-- A `..`. -/
  | parent
  /-- A name. -/
  | normal (name : Text)
deriving DecidableEq

namespace Component

/-- The meaning of a segment behind the opening of a path; a blank segment has none. -/
def ofSegment (s : Text) : Option Component :=
  if s = [] ∨ s = ['.'] then none
  else if s = ['.', '.'] then some .parent
  else some (.normal s)

def text : Component → Text
  | root => ['/']
  | current => ['.']
  | parent => ['.', '.']
  | normal name => name

end Component

/-- The parts of the text between slashes. -/
def segments (p : Path) : List Text := Text.pieces '/' p.text

/-- Whether a segment names nothing: it is empty or a dot. -/
def blank (s : Text) : Bool := s == [] || s == ['.']

/-- The opening component of a path, if it has one, and the segments after it. -/
def opening (p : Path) : Option Component × List Text :=
  match p.segments with
  | [] :: s :: rest => (some .root, s :: rest)
  | ['.'] :: rest => (some .current, rest)
  | segments => (none, segments)

/-- The components of a path, which are its meaning. -/
def components (p : Path) : List Component :=
  p.opening.1.toList ++ p.opening.2.filterMap Component.ofSegment

/-- Paths are the same if their components are. -/
instance instHasEquiv : HasEquiv Path := ⟨fun p q => p.components = q.components⟩

/-- Sameness of paths is decided on the components. -/
instance instDecidableEquiv (p q : Path) : Decidable (p ≈ q) :=
  inferInstanceAs (Decidable (p.components = q.components))

theorem equiv_def {p q : Path} : p ≈ q ↔ p.components = q.components := Iff.rfl

theorem equiv_refl (p : Path) : p ≈ p := rfl

theorem equiv_symm {p q : Path} (h : p ≈ q) : q ≈ p := Eq.symm h

theorem equiv_trans {p q r : Path} (h : p ≈ q) (h' : q ≈ r) : p ≈ r := Eq.trans h h'

/-- Whether the path starts at the root. -/
def isAbsolute (p : Path) : Bool := p.text.head? == some '/'

/-! ### Joining -/

/-- The path `q` below `p`; an absolute `q` stands for itself. -/
def join (p q : Path) : Path :=
  if q.isAbsolute then q
  else if p.text.isEmpty || p.text.getLast? == some '/' then ⟨p.text ++ q.text⟩
  else ⟨p.text ++ '/' :: q.text⟩

/-- The text of segments, with slashes between them. -/
def joinSegments (segments : List Text) : Text := ['/'].intercalate segments

/-- Leaves out the blank segments at the end. -/
def dropBlankEnd (segments : List Text) : List Text :=
  (segments.reverse.dropWhile blank).reverse

/-- Leaves out the blank segments at both ends. -/
def trimBlank (segments : List Text) : List Text := dropBlankEnd (segments.dropWhile blank)

/-- The text of an opening and the segments after it. -/
def write : Option Component → List Text → Text
  | none, segments => joinSegments segments
  | some .root, segments => '/' :: joinSegments segments
  | some c, [] => c.text
  | some c, segments => c.text ++ '/' :: joinSegments segments

/-- The segments left when those of the components `prior` are taken from the front. -/
def dropComponents : List Text → List Component → Option (List Text)
  | segments, [] => some segments
  | [], _ :: _ => none
  | s :: segments, c :: prior =>
    match Component.ofSegment s with
    | none => dropComponents segments (c :: prior)
    | some d => if d = c then dropComponents segments prior else none

/-- The part of `p` below `base`, in the words of `p` without blank segments at its ends;
`none` if the components of `base` do not come first in `p`.  An empty `base` leaves the opening
of `p` alone. -/
def stripPrefix? (p base : Path) : Option Path :=
  let (first, rest) := p.opening
  match base.components, first with
  | [], _ => some ⟨write first (dropBlankEnd rest)⟩
  | c :: prior, some d =>
    if d = c then (dropComponents rest prior).map fun s => ⟨joinSegments (trimBlank s)⟩ else none
  | prior, none => (dropComponents rest prior).map fun s => ⟨joinSegments (trimBlank s)⟩

/-! ### The last component -/

/-- The last component, if it is a name. -/
def fileName (p : Path) : Option Text :=
  match p.components.getLast? with
  | some (.normal name) => some name
  | _ => none

/-- The path without its last component; the root and the empty path have no parent. -/
def parent (p : Path) : Option Path :=
  let (first, rest) := p.opening
  match rest.reverse.dropWhile blank, first with
  | _ :: above, _ => some ⟨write first (above.dropWhile blank).reverse⟩
  | [], some .current => some ⟨[]⟩
  | [], _ => none

end Path
end NinjaPlan
