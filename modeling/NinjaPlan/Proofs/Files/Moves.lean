import Mathlib.Logic.Relation
import NinjaPlan.Proofs.Files.Temporary

/-! # The moves of a replacement

A replacement as the moves that it makes one after the other: a temporary file is created, written
some bytes at a time, flushed, made readable, synced and renamed over the file at the path.  After
every move but the last it may fail, which takes the temporary file away.

`Stage` says what there is in each phase.  Every move keeps it (`Move.stage`), so it holds in every
state that moves lead to (`stage_of_moves`): the tree is the one that the replacement began with,
or that tree with a temporary file more, or that tree with the new file.  Therefore no other file is
touched (`Stage.apart`).

The temporary file may have any name of its kind that is not in use.  Where nothing is yet, this may
be the name of the file to be (`NamesTemporary`): then the path names the temporary file for a
while.  Otherwise the file at the path is the old one until it is the new one, whole
(`Stage.intact`). -/

namespace NinjaPlan.FileTree

/-- How far a replacement has come, and the place of its temporary file while there is one. -/
inductive Phase where
  | begun
  | writing (place : Location)
  | flushed (place : Location)
  | readable (place : Location)
  | synced (place : Location)
  | replaced
  | abandoned
deriving DecidableEq

/-- The place of the temporary file, while there is one. -/
def Phase.temporary? : Phase → Option Location
  | .writing place | .flushed place | .readable place | .synced place => some place
  | .begun | .replaced | .abandoned => none

/-- A state of a replacement: its phase and the files that there are. -/
structure Replacing where
  phase : Phase
  files : FileTree

/-- A path names a place: that of its last name in the directory that the rest of it leads to. -/
def Names (t : FileTree) (here : Location) (path : Bytes) (place : Location) : Prop :=
  ∃ name dir slashed, t.locateParent here path = .ok (dir, .name name slashed) ∧ place = name :: dir

/-- A place for a temporary file: nothing is there, and its name is that of a temporary file. -/
def Spare (t : FileTree) (place : Location) : Prop :=
  ∃ name dir, t.get? (name :: dir) = none ∧ IsTemporaryName name ∧ place = name :: dir

/-- One move of the replacement of the file at a path. -/
inductive Move (here : Location) (path : Path) (content : Bytes) :
    Replacing → Replacing → Prop where
  | refuse {u : FileTree} : Move here path content ⟨.begun, u⟩ ⟨.abandoned, u⟩
  | create {u : FileTree} {dir : Location} {name : Name}
      (hdir : u.directoryAt here (directoryOf path).bytes = some dir)
      (hfree : u.get? (name :: dir) = none) (hname : IsTemporaryName name) :
      Move here path content ⟨.begun, u⟩
        ⟨.writing (name :: dir), u.put (name :: dir) (.file [] privatePermissions)⟩
  | write {u : FileTree} {place : Location} {data more : Bytes} {permissions : Nat}
      (hdata : u.get? place = some (.file data permissions)) (hmore : data ++ more <+: content) :
      Move here path content ⟨.writing place, u⟩
        ⟨.writing place, u.put place (.file (data ++ more) permissions)⟩
  | flush {u : FileTree} {place : Location} {permissions : Nat}
      (hdata : u.get? place = some (.file content permissions)) :
      Move here path content ⟨.writing place, u⟩ ⟨.flushed place, u⟩
  | setPermissions {u : FileTree} {place : Location} {data : Bytes} {permissions : Nat}
      (hdata : u.get? place = some (.file data permissions)) :
      Move here path content ⟨.flushed place, u⟩
        ⟨.readable place, u.put place (.file data readablePermissions)⟩
  | sync {u : FileTree} {place : Location} :
      Move here path content ⟨.readable place, u⟩ ⟨.synced place, u⟩
  | rename {u : FileTree} {place target : Location} {e : Entry} (he : u.get? place = some e)
      (htarget : u.renameTarget here path.bytes = .ok target) :
      Move here path content ⟨.synced place, u⟩ ⟨.replaced, (u.erase place).put target e⟩
  | fail {u : FileTree} {phase : Phase} {place : Location}
      (hplace : phase.temporary? = some place) :
      Move here path content ⟨phase, u⟩ ⟨.abandoned, u.erase place⟩

/-- Any number of moves. -/
def Moves (here : Location) (path : Path) (content : Bytes) : Replacing → Replacing → Prop :=
  Relation.ReflTransGen (Move here path content)

section stages

variable {t u : FileTree} {here place : Location} {path : Path} {content : Bytes}
  {s s' : Replacing}

/-! ### Places -/

theorem Names.unique {p : Bytes} {other : Location} (h : t.Names here p place)
    (hother : t.Names here p other) : place = other := by
  obtain ⟨name, dir, slashed, hparent, rfl⟩ := h
  obtain ⟨name', dir', slashed', hparent', rfl⟩ := hother
  rw [hparent] at hparent'
  cases hparent'
  rfl

theorem Spare.free (h : t.Spare place) : t.get? place = none := by
  obtain ⟨name, dir, hfree, -, rfl⟩ := h
  exact hfree

theorem Spare.ne_nil (h : t.Spare place) : place ≠ [] := by
  obtain ⟨name, dir, -, -, rfl⟩ := h
  exact List.cons_ne_nil name dir

/-- What a rename to a path would put in place of what. -/
theorem renameTarget_eq_ok_iff {p : Bytes} {target : Location} :
    t.renameTarget here p = .ok target ↔ 0 ∉ p ∧ t.get? target ≠ some .directory ∧
      ∃ (name : Name) (dir : Location), target = name :: dir ∧
        t.locateParent here p = .ok (dir, .name name false) := by
  unfold renameTarget
  by_cases hnul : 0 ∈ p
  · simp [hnul]
  rw [if_neg hnul]
  cases hparent : t.locateParent here p with
  | error e => simp
  | ok found =>
      obtain ⟨dir, last⟩ := found
      cases last with
      | name name slashed => cases slashed <;> grind
      | dots | root => simp

/-! ### Stages -/

/-- What there is in each phase of a replacement that began with a tree. -/
inductive Stage (t : FileTree) (here : Location) (path : Path) (content : Bytes) :
    Replacing → Prop where
  | begun : Stage t here path content ⟨.begun, t⟩
  | writing {place : Location} {data : Bytes} (hspare : t.Spare place)
      (hdata : data <+: content) :
      Stage t here path content ⟨.writing place, t.put place (.file data privatePermissions)⟩
  | flushed {place : Location} (hspare : t.Spare place) :
      Stage t here path content ⟨.flushed place, t.put place (.file content privatePermissions)⟩
  | readable {place : Location} (hspare : t.Spare place) :
      Stage t here path content ⟨.readable place, t.put place (.file content readablePermissions)⟩
  | synced {place : Location} (hspare : t.Spare place) :
      Stage t here path content ⟨.synced place, t.put place (.file content readablePermissions)⟩
  | replaced {name : Name} {dir : Location} (hnul : 0 ∉ path.bytes)
      (hparent : t.locateParent here path.bytes = .ok (dir, .name name false)) :
      Stage t here path content ⟨.replaced, t.put (name :: dir) (.file content readablePermissions)⟩
  | abandoned : Stage t here path content ⟨.abandoned, t⟩

/-- While there is a temporary file, it is all that the tree has more than before. -/
theorem Stage.of_temporary (h : Stage t here path content s)
    (hplace : s.phase.temporary? = some place) : t.Spare place ∧
      ∃ data permissions, s.files = t.put place (.file data permissions) := by
  cases h with
  | writing hspare | flushed hspare | readable hspare | synced hspare =>
      cases hplace
      exact ⟨hspare, _, _, rfl⟩
  | begun | replaced | abandoned => cases hplace

/-- One move keeps what there is in each phase. -/
theorem Move.stage (hmove : Move here path content s s') (h : Stage t here path content s) :
    Stage t here path content s' := by
  cases hmove with
  | refuse =>
      cases h
      exact .abandoned
  | create hdir hfree hname =>
      cases h
      exact .writing ⟨_, _, hfree, hname, rfl⟩ List.nil_prefix
  | write hdata hmore =>
      cases h with
      | writing hspare =>
          rw [get?_put_self hspare.ne_nil] at hdata
          cases hdata
          rw [put_put]
          exact .writing hspare hmore
  | flush hdata =>
      cases h with
      | writing hspare =>
          rw [get?_put_self hspare.ne_nil] at hdata
          cases hdata
          exact .flushed hspare
  | setPermissions hdata =>
      cases h with
      | flushed hspare =>
          rw [get?_put_self hspare.ne_nil] at hdata
          cases hdata
          rw [put_put]
          exact .readable hspare
  | sync =>
      cases h with
      | readable hspare => exact .synced hspare
  | rename he htarget =>
      cases h with
      | synced hspare =>
          rw [get?_put_self hspare.ne_nil] at he
          cases he
          -- The target is looked up while the temporary file is still there.
          obtain ⟨hnul, -, name, dir, rfl, hparent⟩ := renameTarget_eq_ok_iff.mp htarget
          rw [erase_put_of_free hspare.free]
          exact .replaced hnul (locateParent_put hspare.ne_nil hparent)
  | fail hplace =>
      obtain ⟨hspare, data, permissions, hfiles⟩ := h.of_temporary hplace
      dsimp only at hfiles
      rw [hfiles, erase_put_of_free hspare.free]
      exact .abandoned

/-- Whatever moves a replacement has made, it is at a stage. -/
theorem stage_of_moves (h : Moves here path content ⟨.begun, t⟩ s) :
    Stage t here path content s := by
  induction h with
  | refl => exact .begun
  | tail _ hmove ih => exact hmove.stage ih

/-! ### What an observer sees -/

/-- The path may name a temporary file: nothing is where it says, and its name is that of one. -/
def NamesTemporary (t : FileTree) (here : Location) (path : Bytes) : Prop :=
  ∃ name dir, t.Names here path (name :: dir) ∧ t.get? (name :: dir) = none ∧ IsTemporaryName name

theorem Spare.not_names {p : Bytes} (h : t.Spare place) (hplain : ¬ t.NamesTemporary here p) :
    ¬ t.Names here p place := by
  obtain ⟨name, dir, hfree, hname, rfl⟩ := h
  exact fun hnames => hplain ⟨name, dir, hnames, hfree, hname⟩

/-- Beside the file that a path names there is nothing that is not as before but a temporary
file. -/
structure Apart (t : FileTree) (here : Location) (path : Path) (s : Replacing) : Prop where
  /-- The temporary file stands where nothing was. -/
  temporary : ∀ place, s.phase.temporary? = some place → t.get? place = none
  /-- Everything else is as before. -/
  others : ∀ place, ¬ t.Names here path.bytes place → s.phase.temporary? ≠ some place →
    s.files.get? place = t.get? place

/-- Also the file that the path names is the old one or the new one. -/
structure Intact (t : FileTree) (here : Location) (path : Path) (content : Bytes)
    (s : Replacing) : Prop extends Apart t here path s where
  /-- What the path names is what it was until it is the new file. -/
  destination : ∀ place, t.Names here path.bytes place → s.files.get? place =
    if s.phase = .replaced then some (.file content readablePermissions) else t.get? place
  /-- The temporary file does not stand where the path says. -/
  distinct : ∀ place, s.phase.temporary? = some place → ¬ t.Names here path.bytes place

/-- At every stage nothing else is touched. -/
theorem Stage.apart (h : Stage t here path content s) : Apart t here path s := by
  cases h with
  | begun | abandoned => exact ⟨nofun, fun _ _ _ => rfl⟩
  | writing hspare | flushed hspare | readable hspare | synced hspare =>
      refine ⟨fun other hother => ?_, fun other _ hother => ?_⟩
      · cases hother
        exact hspare.free
      · refine get?_put_of_ne hspare.ne_nil ?_ _
        rintro rfl
        exact hother rfl
  | replaced hnul hparent =>
      refine ⟨nofun, fun other hother _ => get?_put_of_ne (List.cons_ne_nil _ _) ?_ _⟩
      rintro rfl
      exact hother ⟨_, _, _, hparent, rfl⟩

/-- At every stage the file at the path is the old one or the new one, where the temporary file has
a place of its own. -/
theorem Stage.intact (h : Stage t here path content s)
    (hdistinct : ∀ place, s.phase.temporary? = some place → ¬ t.Names here path.bytes place) :
    Intact t here path content s := by
  refine { toApart := h.apart, destination := fun other hother => ?_, distinct := hdistinct }
  cases h with
  | begun | abandoned => rfl
  | writing hspare | flushed hspare | readable hspare | synced hspare =>
      refine get?_put_of_ne hspare.ne_nil ?_ _
      rintro rfl
      exact hdistinct _ rfl hother
  | replaced hnul hparent =>
      rw [if_pos rfl, hother.unique ⟨_, _, _, hparent, rfl⟩]
      exact get?_put_self (List.cons_ne_nil _ _) _

theorem Stage.not_names (h : Stage t here path content s)
    (hplain : ¬ t.NamesTemporary here path.bytes) :
    ∀ place, s.phase.temporary? = some place → ¬ t.Names here path.bytes place :=
  fun _ hplace => (h.of_temporary hplace).1.not_names hplain

end stages
end NinjaPlan.FileTree
