import NinjaPlan.Files.Error
import NinjaPlan.Text.Utf8

/-! # File trees

The files of a machine as a finite map from locations to entries.  A location lists the names from
the entry up to the root, so the entry's name is its head and its directory is its tail; the
root is the empty location and always a directory.

`get?` is the view of a tree: `put` and `erase` are known by what they do to it
(`get?_put`, `get?_erase`). -/

namespace NinjaPlan

abbrev Name := Bytes

/-- The names from an entry up to the root. -/
abbrev Location := List Name

/-- A device or another special file. -/
inductive Device where
  /-- Takes everything and holds nothing. -/
  | null
  /-- Takes everything and holds zeros without end. -/
  | zero
  /-- Takes nothing and holds zeros without end. -/
  | full
  /-- Stands for an open descriptor of the program that opens it. -/
  | descriptor (number : Nat)
  /-- Cannot be opened. -/
  | closed
deriving DecidableEq

/-- An entry of a file tree.  A directory has no permissions: every directory can be read, searched
and written to. -/
inductive Entry where
  | file (content : Bytes) (permissions : Nat)
  | directory
  /-- A symbolic link, with the path it holds. -/
  | link (target : Bytes)
  | device (kind : Device)
deriving DecidableEq

/-- A file tree. -/
structure FileTree where
  entries : List (Location × Entry) := []

namespace FileTree

def get? (t : FileTree) : Location → Option Entry
  | [] => some .directory
  | name :: above => t.entries.lookup (name :: above)

/-- The tree without the entry at a location. -/
def erase (t : FileTree) (loc : Location) : FileTree := ⟨t.entries.filter fun e => e.1 != loc⟩

/-- The tree with an entry at a location, in place of the one that was there. -/
def put (t : FileTree) (loc : Location) (e : Entry) : FileTree :=
  ⟨(loc, e) :: (t.erase loc).entries⟩

/-- The tree without a location and everything below it. -/
def eraseBelow (t : FileTree) (loc : Location) : FileTree :=
  ⟨t.entries.filter fun e => !loc.isSuffixOf e.1⟩

/-- The names in a directory with their entries, in no particular order. -/
def children (t : FileTree) (dir : Location) : List (Name × Entry) :=
  t.entries.filterMap fun (loc, e) =>
    match loc with
    | [] => none
    | name :: above => if above = dir then some (name, e) else none

/-! ### The view -/

@[simp] theorem get?_nil (t : FileTree) : t.get? [] = some .directory := rfl

theorem lookup_filter_self {loc : Location} (l : List (Location × Entry)) :
    (l.filter fun e => e.1 != loc).lookup loc = none := by
  induction l with
  | nil => rfl
  | cons e l ih =>
    by_cases h : e.1 = loc
    · simpa [List.filter_cons, h] using ih
    · rw [List.filter_cons_of_pos (by simpa using h)]
      rw [show e = (e.1, e.2) from rfl, List.lookup_cons]
      simpa [beq_eq_false_iff_ne.2 (Ne.symm h)] using ih

theorem lookup_filter_of_ne {loc other : Location} (h : other ≠ loc)
    (l : List (Location × Entry)) :
    (l.filter fun e => e.1 != loc).lookup other = l.lookup other := by
  induction l with
  | nil => rfl
  | cons e l ih =>
    obtain ⟨k, v⟩ := e
    by_cases hk : k = loc
    · subst hk
      rw [List.filter_cons_of_neg (by simp), List.lookup_cons, beq_eq_false_iff_ne.2 h]
      simpa using ih
    · rw [List.filter_cons_of_pos (by simpa using hk), List.lookup_cons, List.lookup_cons, ih]

theorem get?_erase (t : FileTree) {loc : Location} (h : loc ≠ []) (other : Location) :
    (t.erase loc).get? other = if other = loc then none else t.get? other := by
  cases other with
  | nil => rw [if_neg (Ne.symm h)]; rfl
  | cons name above =>
    split
    · next he => subst he; exact lookup_filter_self t.entries
    · next he => exact lookup_filter_of_ne he t.entries

theorem get?_put (t : FileTree) {loc : Location} (h : loc ≠ []) (e : Entry) (other : Location) :
    (t.put loc e).get? other = if other = loc then some e else t.get? other := by
  cases other with
  | nil => rw [if_neg (Ne.symm h)]; rfl
  | cons name above =>
    split
    · next he => subst he; simp [get?, put]
    · next he =>
      simp only [get?, put, List.lookup_cons, beq_eq_false_iff_ne.2 he]
      exact lookup_filter_of_ne he t.entries

end FileTree
end NinjaPlan
