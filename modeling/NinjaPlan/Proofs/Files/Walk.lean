import Mathlib.Tactic.SplitIfs
import NinjaPlan.Files.Access

/-! # Where paths lead

What becomes of a walk at one segment is its `turn`, and a walk takes one turn after the other
(`walk_cons`).  So a path may be followed in parts: what leads to a directory may be gone on from
there (`follow_append`), and what leads anywhere leads to a place between first
(`follow_append_cases`). -/

namespace NinjaPlan.FileTree

variable {t : FileTree} {here dir : Location}

theorem mem_entries_of_get? {name : Name} {above : Location} {e : Entry}
    (h : t.get? (name :: above) = some e) : (name :: above, e) ∈ t.entries := by
  obtain ⟨before, after, hentries, -⟩ := List.lookup_eq_some_iff.mp h
  rw [hentries]
  simp

/-! ### Turns -/

/-- What becomes of a walk at a segment. -/
inductive Turn where
  /-- It goes on from a location. -/
  | on (loc : Location)
  | missing
  | link (target : Bytes)
  | refused (e : OsError)

/-- What becomes of a walk that comes to a segment. -/
def turn (t : FileTree) (here : Location) (s : Name) : Turn :=
  if t.get? here = none then .refused .notFound
  else if t.get? here ≠ some .directory then .refused .notDirectory
  else if s = [] ∨ s = [dot] then .on here
  else if s = [dot, dot] then .on here.tail
  else if nameLimit < s.length then .refused .nameTooLong
  else
    match t.get? (s :: here) with
    | none => .missing
    | some (.link target) => .link target
    | some _ => .on (s :: here)

theorem walk_cons (t : FileTree) (here : Location) (s : Name) (rest : List Name) :
    t.walk here (s :: rest) =
      match t.turn here s with
      | .on loc => t.walk loc rest
      | .missing => .missing here s rest
      | .link target => .link here target rest
      | .refused e => .refused e := by
  rw [walk, turn]
  split_ifs
  · rfl
  · rfl
  · rfl
  · rfl
  · rfl
  · split <;> simp_all

/-! ### Going on -/

theorem walk_append (t : FileTree) (here : Location) (segments rest : List Name) :
    t.walk here (segments ++ rest) =
      match t.walk here segments with
      | .found loc => t.walk loc rest
      | .missing above name behind => .missing above name (behind ++ rest)
      | .link above target behind => .link above target (behind ++ rest)
      | .refused e => .refused e := by
  induction segments generalizing here with
  | nil => rfl
  | cons s segments ih =>
      rw [List.cons_append, walk_cons, walk_cons]
      cases t.turn here s with
      | on loc => exact ih loc
      | missing | link | refused => rfl

theorem walk_append_of_found {segments : List Name} (h : t.walk here segments = .found dir)
    (rest : List Name) : t.walk here (segments ++ rest) = t.walk dir rest := by
  rw [walk_append, h]

theorem walk_append_of_link {segments behind : List Name} {above : Location} {target : Bytes}
    (h : t.walk here segments = .link above target behind) (rest : List Name) :
    t.walk here (segments ++ rest) = .link above target (behind ++ rest) := by
  rw [walk_append, h]

theorem follow_of_found {segments : List Name} (h : t.walk here segments = .found dir)
    (links : Nat) : t.follow links here segments = .ok (.found dir) := by
  unfold follow
  simp [h]

theorem follow_cases {links : Nat} {segments : List Name}
    (h : t.follow links here segments = .ok (.found dir)) :
    t.walk here segments = .found dir ∨
      ∃ (left : Nat) (above : Location) (target : Bytes) (rest : List Name), links = left + 1 ∧
        t.walk here segments = .link above target rest ∧
        t.follow left (startOf above target) (Text.pieces slash target ++ rest) =
          .ok (.found dir) := by
  unfold follow at h
  cases hw : t.walk here segments with
  | found loc => exact Or.inl (by simpa [hw] using h)
  | missing | refused => simp [hw] at h
  | link above target rest =>
      cases links with
      | zero => simp [hw] at h
      | succ left => exact Or.inr ⟨left, above, target, rest, rfl, rfl, by simpa [hw] using h⟩

theorem follow_of_link {segments rest : List Name} {above : Location} {target : Bytes}
    (h : t.walk here segments = .link above target rest) (links : Nat) :
    t.follow (links + 1) here segments =
      t.follow links (startOf above target) (Text.pieces slash target ++ rest) := by
  conv =>
    lhs
    unfold follow
  simp only [h]

/-- What leads to a place is gone on from there, with the links that are left. -/
theorem follow_append {links : Nat} {segments : List Name}
    (h : t.follow links here segments = .ok (.found dir)) (rest : List Name) :
    ∃ left, t.follow links here (segments ++ rest) = t.follow left dir rest := by
  -- A link puts its own segments in front, so only the number of links is sure to go down.
  induction links using Nat.strongRecOn generalizing here segments with
  | ind links ih =>
      rcases follow_cases h with hw | ⟨left, above, target, behind, rfl, hw, hleft⟩
      · refine ⟨links, ?_⟩
        unfold follow
        rw [walk_append_of_found hw]
      · obtain ⟨least, hleast⟩ := ih left (Nat.lt_succ_self left) hleft
        refine ⟨least, ?_⟩
        rw [follow_of_link (walk_append_of_link hw rest), ← List.append_assoc, hleast]

/-- More links to take do no harm. -/
theorem follow_mono {links more : Nat} {segments : List Name} (hle : links ≤ more)
    (h : t.follow links here segments = .ok (.found dir)) :
    t.follow more here segments = .ok (.found dir) := by
  induction links using Nat.strongRecOn generalizing more here segments with
  | ind links ih =>
      rcases follow_cases h with hw | ⟨left, above, target, rest, rfl, hw, hleft⟩
      · exact follow_of_found hw more
      · obtain ⟨more, rfl⟩ := Nat.exists_eq_add_one_of_ne_zero (Nat.ne_zero_of_lt hle)
        rw [follow_of_link hw]
        exact ih left (Nat.lt_succ_self left) (Nat.le_of_succ_le_succ hle) hleft

theorem follow_append_cases {links : Nat} {segments rest : List Name}
    (h : t.follow links here (segments ++ rest) = .ok (.found dir)) :
    ∃ (between : Location) (left : Nat), left ≤ links ∧
      t.follow links here segments = .ok (.found between) ∧
      t.follow left between rest = .ok (.found dir) := by
  induction links using Nat.strongRecOn generalizing here segments with
  | ind links ih =>
      have hwalk := walk_append t here segments rest
      cases hfirst : t.walk here segments with
      | found between =>
          rw [hfirst] at hwalk
          refine ⟨between, links, Nat.le_refl links, follow_of_found hfirst links, ?_⟩
          unfold follow at h ⊢
          rwa [hwalk] at h
      | link above target behind =>
          rw [hfirst] at hwalk
          rcases follow_cases h with hw | ⟨left, above', target', behind', rfl, hw, hleft⟩
          · cases hw.symm.trans hwalk
          · obtain ⟨rfl, rfl, rfl⟩ := Walk.link.inj (hw.symm.trans hwalk)
            rw [← List.append_assoc] at hleft
            obtain ⟨between, least, hle, hbetween, hrest⟩ := ih left (Nat.lt_succ_self left) hleft
            exact ⟨between, least, Nat.le_succ_of_le hle,
              (follow_of_link hfirst left).trans hbetween, hrest⟩
      | missing | refused =>
          rw [hfirst] at hwalk
          unfold follow at h
          rw [hwalk] at h
          cases h

theorem follow_append_blank {links : Nat} {segments : List Name}
    (h : t.follow links here segments = .ok (.found dir)) (hdir : t.get? dir = some .directory) :
    t.follow links here (segments ++ [[]]) = .ok (.found dir) := by
  have hturn : t.turn dir [] = .on dir := by simp [turn, hdir]
  have hwalk : t.walk dir [[]] = .found dir := by rw [walk_cons, hturn]; rfl
  obtain ⟨left, hleft⟩ := follow_append h [[]]
  rw [hleft, follow_of_found hwalk]

/-! ### Paths that lead somewhere -/

theorem directoryAt_eq_some_iff {path : Bytes} :
    t.directoryAt here path = some dir ↔ 0 ∉ path ∧ path ≠ [] ∧ path.length < pathLimit ∧
      t.follow linkLimit (startOf here path) (Text.pieces slash path) = .ok (.found dir) ∧
      t.get? dir = some .directory := by
  unfold directoryAt find locate
  by_cases hnul : 0 ∈ path
  · simp [hnul]
  by_cases hempty : path = []
  · simp [hempty]
  by_cases hlong : pathLimit ≤ path.length
  · simp [hnul, hempty, hlong, Nat.not_lt.mpr hlong]
  rw [if_neg hnul, if_neg hempty, if_neg hlong]
  cases hfollow : t.follow linkLimit (startOf here path) (Text.pieces slash path) with
  | error e => simp
  | ok reached =>
      cases reached with
      | missing => simp
      | found loc => grind

theorem locateParent_eq_ok_iff {path : Bytes} {last : LastSegment} :
    t.locateParent here path = .ok (dir, last) ↔ path ≠ [] ∧ path.length < pathLimit ∧
      t.follow linkLimit (startOf here path) (splitLast path).1 = .ok (.found dir) ∧
      t.get? dir = some .directory ∧ last = (splitLast path).2 ∧
      ∀ name slashed, last = .name name slashed → name.length ≤ nameLimit := by
  unfold locateParent
  by_cases hempty : path = []
  · simp [hempty]
  by_cases hlong : pathLimit ≤ path.length
  · simp [hempty, hlong, Nat.not_lt.mpr hlong]
  rw [if_neg hempty, if_neg hlong]
  dsimp only
  cases hfollow : t.follow linkLimit (startOf here path) (splitLast path).1 with
  | error e => simp
  | ok reached =>
      cases reached with
      | missing => simp
      | found loc => cases hlast : (splitLast path).2 <;> grind

/-! ### Files of a directory -/

section splitLast

variable {name : Name}

theorem splitLast_append_name (above : Bytes) (hslash : slash ∉ name) (hne : name ≠ [])
    (hdots : name ≠ [dot] ∧ name ≠ [dot, dot]) :
    splitLast (above ++ slash :: name) = (Text.pieces slash above, .name name false) := by
  have hname : Text.pieces slash name = [name] := by
    rw [Text.pieces_eq_splitOn, List.splitOn_eq_singleton hslash]
  unfold splitLast
  simp [Text.pieces_append_sep, hname, hdots, hne]

theorem directoryAt_of_locateParent {above : Bytes} {last : LastSegment}
    (hslash : slash ∉ name) (hne : name ≠ []) (hdots : name ≠ [dot] ∧ name ≠ [dot, dot])
    (hnul : 0 ∉ above ++ slash :: name)
    (h : t.locateParent here (above ++ slash :: name) = .ok (dir, last)) :
    last = .name name false ∧ t.directoryAt here (above ++ [slash]) = some dir ∧
      (above ≠ [] → t.directoryAt here above = some dir) := by
  obtain ⟨-, hshort, hfollow, hdir, hlast, -⟩ := locateParent_eq_ok_iff.mp h
  rw [splitLast_append_name above hslash hne hdots] at hfollow hlast
  simp only [List.mem_append, List.mem_cons, not_or] at hnul
  rw [List.length_append, List.length_cons] at hshort
  have hstart : startOf here (above ++ slash :: name) = startOf here (above ++ [slash]) := by
    cases above <;> rfl
  refine ⟨hlast, directoryAt_eq_some_iff.mpr ⟨?_, by simp, ?_, ?_, hdir⟩, fun habove =>
    directoryAt_eq_some_iff.mpr ⟨hnul.1, habove, by omega, ?_, hdir⟩⟩
  · simp [hnul.1, hnul.2.1]
  · rw [List.length_append, List.length_singleton]
    have hpos : 0 < name.length := List.length_pos_iff.mpr hne
    omega
  · rw [Text.pieces_append_sep, ← hstart]
    exact follow_append_blank hfollow hdir
  · have hsame : startOf here (above ++ slash :: name) = startOf here above := by
      cases above with
      | nil => exact absurd rfl habove
      | cons b above => rfl
    rwa [← hsame]

end splitLast

end NinjaPlan.FileTree
