import NinjaPlan.Proofs.Files.Walk
import NinjaPlan.Proofs.Listing

/-! # Canonical paths

The canonical path of a directory lists the names from the root down to it.  In a tree whose entries
have names that a path can spell and stand in directories, `WellFormed`, it leads to this directory
and to no other (`directoryAt_path`), wherever one stands.  No path ends at a link
(`not_link_of_follow`). -/

namespace NinjaPlan.FileTree

variable {t : FileTree} {here dir : Location}

/-- A tree as a disk has it: every entry has a name that a path can spell, and stands in a
directory. -/
structure WellFormed (t : FileTree) : Prop where
  named : t.WellNamed
  short : ∀ e ∈ t.entries, ∀ name ∈ e.1, name.length ≤ nameLimit
  placed : ∀ e ∈ t.entries, t.get? e.1.tail = some .directory

theorem turn_of_child (h : t.WellFormed) {name : Name} {e : Entry}
    (hchild : t.get? (name :: dir) = some e) (hlink : ∀ target, e ≠ .link target) :
    t.turn dir name = .on (name :: dir) := by
  have hmem := mem_entries_of_get? hchild
  obtain ⟨-, hne, hdot, hup⟩ := h.named _ hmem name List.mem_cons_self
  have hshort := h.short _ hmem name List.mem_cons_self
  have hdir : t.get? dir = some .directory := h.placed _ hmem
  cases e with
  | link target => exact absurd rfl (hlink target)
  | file | directory | device =>
      simp [turn, hdir, hne, hdot, hup, hchild, Nat.not_lt.mpr hshort]

/-- From the root, the names of a directory lead down to it. -/
theorem walk_reverse (h : t.WellFormed) {loc : Location} (hloc : t.get? loc = some .directory) :
    t.walk [] loc.reverse = .found loc := by
  induction loc with
  | nil => rfl
  | cons name above ih =>
      have habove : t.get? above = some .directory := h.placed _ (mem_entries_of_get? hloc)
      rw [List.reverse_cons, walk_append_of_found (ih habove), walk_cons,
        turn_of_child h hloc (by simp)]
      rfl

theorem not_link_of_turn (h : t.WellFormed) {s : Name} {loc : Location}
    (hturn : t.turn here s = .on loc) (target : Bytes) : t.get? loc ≠ some (.link target) := by
  unfold turn at hturn
  split_ifs at hturn with hnone hdir hstay hup
  · obtain rfl := Turn.on.inj hturn
    simp [not_not.mp hdir]
  · obtain rfl := Turn.on.inj hturn
    cases here with
    | nil => simp
    | cons name above =>
        have habove : t.get? above = some .directory :=
          h.placed _ (mem_entries_of_get? (not_not.mp hdir))
        simp [habove]
  · split at hturn
    · cases hturn
    · cases hturn
    · next hlink hget =>
        obtain rfl := Turn.on.inj hturn
        rw [hget]
        rintro heq
        exact hlink target (Option.some.inj heq)

theorem not_link_of_walk (h : t.WellFormed) {segments : List Name} {loc : Location}
    (hne : segments ≠ []) (hwalk : t.walk here segments = .found loc) (target : Bytes) :
    t.get? loc ≠ some (.link target) := by
  induction segments generalizing here with
  | nil => exact absurd rfl hne
  | cons s segments ih =>
      rw [walk_cons] at hwalk
      cases hturn : t.turn here s with
      | on next =>
          rw [hturn] at hwalk
          cases segments with
          | nil =>
              obtain rfl := Walk.found.inj hwalk
              exact not_link_of_turn h hturn target
          | cons s' segments => exact ih (List.cons_ne_nil _ _) hwalk
      | missing | link | refused => simp [hturn] at hwalk

theorem not_link_of_follow (h : t.WellFormed) {links : Nat} {segments : List Name} {loc : Location}
    (hne : segments ≠ []) (hfollow : t.follow links here segments = .ok (.found loc))
    (target : Bytes) : t.get? loc ≠ some (.link target) := by
  induction links using Nat.strongRecOn generalizing here segments with
  | ind links ih =>
      rcases follow_cases hfollow with hw | ⟨left, above, target', rest, rfl, -, hleft⟩
      · exact not_link_of_walk h hne hw target
      · exact ih left (Nat.lt_succ_self left) (by simp [Text.pieces_ne_nil]) hleft

theorem intercalate_slash_cons (s : Name) (names : List Name) :
    [slash].intercalate (s :: names) = s ++ names.flatMap (slash :: ·) := by
  induction names generalizing s with
  | nil => simp
  | cons name names ih =>
      rw [List.intercalate_cons_cons, ih name]
      simp

theorem pieces_flatMap_slash {names : List Name} (h : ∀ name ∈ names, slash ∉ name) :
    Text.pieces slash (names.flatMap (slash :: ·)) = [] :: names := by
  have hjoin := intercalate_slash_cons [] names
  rw [List.nil_append] at hjoin
  rw [← hjoin, Text.pieces_eq_splitOn]
  exact List.splitOn_intercalate slash (List.forall_mem_cons.mpr ⟨by simp, h⟩) (by simp)

theorem walk_path (h : t.WellFormed) {loc : Location} (hloc : t.get? loc = some .directory) :
    t.walk [] (Text.pieces slash (Location.path loc)) = .found loc := by
  have hturn : t.turn [] [] = .on [] := by simp [turn]
  cases loc with
  | nil => rfl
  | cons name above =>
      have hslash : ∀ n ∈ (name :: above).reverse, slash ∉ n := by
        intro n hn
        exact (h.named _ (mem_entries_of_get? hloc) n (List.mem_reverse.mp hn)).1
      have hpath : Location.path (name :: above) =
          (name :: above).reverse.flatMap (slash :: ·) := rfl
      rw [hpath, pieces_flatMap_slash hslash, walk_cons, hturn]
      exact walk_reverse h hloc

theorem path_head (loc : Location) : (Location.path loc).head? = some slash := by
  cases loc with
  | nil => rfl
  | cons name above =>
      obtain ⟨first, rest, h⟩ := List.exists_cons_of_ne_nil (List.reverse_ne_nil_iff.mpr
        (List.cons_ne_nil name above))
      simp [Location.path, h]

theorem directoryAt_path (h : t.WellFormed) {loc : Location} (hloc : t.get? loc = some .directory)
    (hdir : t.directoryAt here (Location.path loc) = some dir) : dir = loc := by
  obtain ⟨-, -, -, hfollow, -⟩ := directoryAt_eq_some_iff.mp hdir
  rw [startOf, if_pos (path_head loc), follow_of_found (walk_path h hloc)] at hfollow
  exact (Reached.found.inj (Except.ok.inj hfollow)).symm

/-- A directory in a directory. -/
example : (⟨[([Utf8.encode "src", Utf8.encode "p"], .directory),
    ([Utf8.encode "p"], .directory)]⟩ : FileTree).WellFormed :=
  ⟨by unfold WellNamed; decide, by decide, by decide⟩

end NinjaPlan.FileTree
