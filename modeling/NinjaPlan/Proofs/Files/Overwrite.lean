import NinjaPlan.Proofs.Files.Canonical

/-! # A file in a place

When a file is put in a place, every path that leads elsewhere afterwards has led there before
(`follow_put`).  The other way round, a path leads where it led, or it leads to the new file and led
where the name of the file did (`follow_put_of_found`).

So the same paths lead to directories, if that name led to none (`directoryAt_put`).  If it led to a
file or to nothing at all, `LeadsToFile`, a name in a directory is what it was (`itemKind_put`). -/

namespace NinjaPlan.FileTree

variable {t : FileTree} {here dir place : Location} {content : Bytes} {permissions : Nat}

theorem get?_put_self (hplace : place ≠ []) (e : Entry) : (t.put place e).get? place = some e := by
  rw [get?_put t hplace, if_pos rfl]

theorem get?_put_of_ne {loc : Location} (hplace : place ≠ []) (h : loc ≠ place) (e : Entry) :
    (t.put place e).get? loc = t.get? loc := by
  rw [get?_put t hplace, if_neg h]

/-! ### Turns at the place -/

/-- Where no directory is, every path ends. -/
theorem turn_of_not_directory (h : t.get? here ≠ some .directory) (s : Name) :
    ∃ e, t.turn here s = .refused e := by
  unfold turn
  split_ifs <;> exact ⟨_, rfl⟩

theorem walk_of_not_directory (h : t.get? here ≠ some .directory) (s : Name) (rest : List Name) :
    ∃ e, t.walk here (s :: rest) = .refused e := by
  obtain ⟨e, he⟩ := turn_of_not_directory h s
  exact ⟨e, by rw [walk_cons, he]⟩

theorem get?_put_ne_directory (hplace : place ≠ []) :
    (t.put place (.file content permissions)).get? place ≠ some .directory := by
  rw [get?_put_self hplace]
  exact fun h => nomatch h

theorem turn_put_of_ne {s : Name} (hplace : place ≠ []) (hhere : here ≠ place)
    (hnext : s :: here ≠ place) (e : Entry) : (t.put place e).turn here s = t.turn here s := by
  unfold turn
  rw [get?_put_of_ne hplace hhere, get?_put_of_ne hplace hnext]

/-- A turn to a new file, or at it, is the only one that is another. -/
theorem turn_put (content : Bytes) (permissions : Nat) (hplace : place ≠ []) (here : Location)
    (s : Name) :
    (t.put place (.file content permissions)).turn here s = t.turn here s ∨
      (t.put place (.file content permissions)).turn here s = .on place ∨
      ∃ e, (t.put place (.file content permissions)).turn here s = .refused e := by
  by_cases hhere : here = place
  · rw [hhere]
    exact Or.inr (Or.inr (turn_of_not_directory (get?_put_ne_directory hplace) s))
  · by_cases hnext : s :: here = place
    · unfold turn
      rw [get?_put_of_ne hplace hhere, hnext, get?_put_self hplace]
      split_ifs <;> simp
    · exact Or.inl (turn_put_of_ne hplace hhere hnext _)

/-! ### What leads elsewhere -/

theorem walk_put (content : Bytes) (permissions : Nat) (hplace : place ≠ []) (here : Location)
    (segments : List Name) :
    (t.put place (.file content permissions)).walk here segments = t.walk here segments ∨
      (t.put place (.file content permissions)).walk here segments = .found place ∨
      ∃ e, (t.put place (.file content permissions)).walk here segments = .refused e := by
  induction segments generalizing here with
  | nil => exact Or.inl rfl
  | cons s segments ih =>
      rw [walk_cons, walk_cons]
      rcases turn_put (t := t) content permissions hplace here s with hturn | hturn | ⟨e, hturn⟩
      · rw [hturn]
        cases t.turn here s with
        | on loc => exact ih loc
        | missing | link | refused => exact Or.inl rfl
      · rw [hturn]
        -- The new file is reached: the path ends there or is refused there.
        cases segments with
        | nil => exact Or.inr (Or.inl rfl)
        | cons s' segments =>
            exact Or.inr (Or.inr
              (walk_of_not_directory (get?_put_ne_directory hplace) s' segments))
      · rw [hturn]
        exact Or.inr (Or.inr ⟨e, rfl⟩)

/-- What leads elsewhere than to a new file has led there before. -/
theorem follow_put (hplace : place ≠ []) {links : Nat} {segments : List Name} (hdir : dir ≠ place)
    (h : (t.put place (.file content permissions)).follow links here segments =
      .ok (.found dir)) : t.follow links here segments = .ok (.found dir) := by
  induction links using Nat.strongRecOn generalizing here segments with
  | ind links ih =>
      have hput := walk_put (t := t) content permissions hplace here segments
      rcases follow_cases h with hw | ⟨left, above, target, rest, rfl, hw, hleft⟩
      · rw [hw] at hput
        rcases hput with hput | hput | ⟨e, hput⟩
        · exact follow_of_found hput.symm links
        · exact absurd (Walk.found.inj hput) hdir
        · cases hput
      · rw [hw] at hput
        rcases hput with hput | hput | ⟨e, hput⟩
        · rw [follow_of_link hput.symm]
          exact ih left (Nat.lt_succ_self left) hleft
        · cases hput
        · cases hput

/-- A new file is in the way of no path. -/
theorem locateParent_put (hplace : place ≠ []) {path : Bytes} {found : Location × LastSegment}
    (h : (t.put place (.file content permissions)).locateParent here path = .ok found) :
    t.locateParent here path = .ok found := by
  obtain ⟨hne, hshort, hfollow, hget, hlast⟩ := locateParent_eq_ok_iff.mp h
  have hdir : found.1 ≠ place := by
    intro heq
    rw [heq] at hget
    exact get?_put_ne_directory hplace hget
  rw [get?_put_of_ne hplace hdir] at hget
  exact locateParent_eq_ok_iff.mpr ⟨hne, hshort, follow_put hplace hdir hfollow, hget, hlast⟩

theorem directoryAt_of_put (hplace : place ≠ []) {path : Bytes} {loc : Location}
    (h : (t.put place (.file content permissions)).directoryAt here path = some loc) :
    t.directoryAt here path = some loc := by
  obtain ⟨hnul, hne, hshort, hfollow, hget⟩ := directoryAt_eq_some_iff.mp h
  have hloc : loc ≠ place := by
    rintro rfl
    exact get?_put_ne_directory hplace hget
  rw [get?_put_of_ne hplace hloc] at hget
  exact directoryAt_eq_some_iff.mpr ⟨hnul, hne, hshort, follow_put hplace hloc hfollow, hget⟩

/-! ### What led somewhere -/

section before

variable {name : Name}

/-- The name is neither that of a directory nor that of a link to one. -/
structure NoDirectory (t : FileTree) (dir : Location) (name : Name) : Prop where
  entry : t.get? (name :: dir) ≠ some .directory
  link : ∀ target, t.get? (name :: dir) = some (.link target) → ∀ loc,
    t.follow linkLimit dir [name] = .ok (.found loc) → t.get? loc ≠ some .directory

theorem noDirectory_of_free (hfree : t.get? (name :: dir) = none) : t.NoDirectory dir name :=
  ⟨by simp [hfree], by simp [hfree]⟩

theorem get?_of_turn_link {s : Name} {target : Bytes} (h : t.turn here s = .link target) :
    t.get? (s :: here) = some (.link target) := by
  unfold turn at h
  split_ifs at h
  split at h
  · cases h
  · next hget => rw [hget, Turn.link.inj h]
  · cases h

section turns

variable (hold : t.get? (name :: dir) ≠ some .directory)
include hold

theorem turn_put_of_on {s : Name} {loc : Location} (h : t.turn here s = .on loc) :
    (t.put (name :: dir) (.file content permissions)).turn here s = .on loc := by
  have hplace : name :: dir ≠ [] := List.cons_ne_nil name dir
  have hhere : here ≠ name :: dir := by
    rintro rfl
    obtain ⟨e, he⟩ := turn_of_not_directory hold s
    cases he.symm.trans h
  by_cases hnext : s :: here = name :: dir
  · obtain ⟨rfl, rfl⟩ := List.cons.inj hnext
    unfold turn at h ⊢
    rw [get?_put_of_ne hplace hhere, get?_put_self hplace]
    split_ifs at h ⊢ <;> try assumption
    split at h
    · cases h
    · cases h
    · exact h
  · rw [turn_put_of_ne hplace hhere hnext, h]

/-- A link is met again, or the new file in its place. -/
theorem turn_put_of_link {s : Name} {target : Bytes} (h : t.turn here s = .link target) :
    (t.put (name :: dir) (.file content permissions)).turn here s = .link target ∨
      s :: here = name :: dir ∧
        (t.put (name :: dir) (.file content permissions)).turn here s = .on (name :: dir) := by
  have hplace : name :: dir ≠ [] := List.cons_ne_nil name dir
  have hhere : here ≠ name :: dir := by
    rintro rfl
    obtain ⟨e, he⟩ := turn_of_not_directory hold s
    cases he.symm.trans h
  by_cases hnext : s :: here = name :: dir
  · obtain ⟨rfl, rfl⟩ := List.cons.inj hnext
    refine Or.inr ⟨rfl, ?_⟩
    unfold turn at h ⊢
    rw [get?_put_of_ne hplace hhere, get?_put_self hplace]
    split_ifs at h ⊢
    rfl
  · exact Or.inl (by rw [turn_put_of_ne hplace hhere hnext, h])

theorem walk_put_of_found {segments : List Name} {loc : Location}
    (h : t.walk here segments = .found loc) :
    (t.put (name :: dir) (.file content permissions)).walk here segments = .found loc := by
  induction segments generalizing here with
  | nil => exact h
  | cons s segments ih =>
      rw [walk_cons] at h ⊢
      cases hturn : t.turn here s with
      | on next =>
          rw [hturn] at h
          rw [turn_put_of_on hold hturn]
          exact ih h
      | missing | link | refused => simp [hturn] at h

theorem walk_put_of_link {segments rest : List Name} {above : Location} {target : Bytes}
    (h : t.walk here segments = .link above target rest) :
    (t.put (name :: dir) (.file content permissions)).walk here segments =
        .link above target rest ∨
      (t.get? (name :: dir) = some (.link target) ∧ t.walk dir [name] = .link above target []) ∧
        (t.put (name :: dir) (.file content permissions)).walk here segments =
          (t.put (name :: dir) (.file content permissions)).walk (name :: dir) rest := by
  induction segments generalizing here with
  | nil => cases h
  | cons s segments ih =>
      rw [walk_cons] at h
      rw [walk_cons]
      cases hturn : t.turn here s with
      | on next =>
          rw [hturn] at h
          rw [turn_put_of_on hold hturn]
          exact ih h
      | link target' =>
          rw [hturn] at h
          obtain ⟨rfl, rfl, rfl⟩ := Walk.link.inj h
          rcases turn_put_of_link hold hturn with hsame | ⟨hnext, hon⟩
          · rw [hsame]
            exact Or.inl rfl
          · obtain ⟨rfl, rfl⟩ := List.cons.inj hnext
            rw [hon]
            exact Or.inr ⟨⟨get?_of_turn_link hturn, by rw [walk_cons, hturn]⟩, rfl⟩
      | missing | refused => simp [hturn] at h

end turns

/-- A path leads where it led, or to the new file instead of where its name led. -/
theorem follow_put_of_found (hno : t.NoDirectory dir name) {links : Nat}
    (hlinks : links ≤ linkLimit) {segments : List Name} {loc : Location}
    (h : t.follow links here segments = .ok (.found loc)) :
    (t.put (name :: dir) (.file content permissions)).follow links here segments =
        .ok (.found loc) ∨
      (t.put (name :: dir) (.file content permissions)).follow links here segments =
          .ok (.found (name :: dir)) ∧
        t.follow linkLimit dir [name] = .ok (.found loc) ∧ t.get? loc ≠ some .directory := by
  induction links using Nat.strongRecOn generalizing here segments with
  | ind links ih =>
      rcases follow_cases h with hw | ⟨left, above, target, rest, rfl, hw, hleft⟩
      · exact Or.inl (follow_of_found (walk_put_of_found hno.entry hw) links)
      · rcases walk_put_of_link hno.entry hw with
          hsame | ⟨⟨hlink, hname⟩, hnew⟩
        · rw [follow_of_link hsame]
          exact ih left (Nat.lt_succ_self left) (Nat.le_of_succ_le hlinks) hleft
        · -- The link was in the place, so nothing can have followed behind it.
          obtain ⟨between, least, -, hbetween, hrest⟩ := follow_append_cases hleft
          have hwas : t.follow linkLimit dir [name] = .ok (.found between) := by
            refine follow_mono hlinks ?_
            rw [follow_of_link hname, List.append_nil]
            exact hbetween
          have hend := hno.link target hlink between hwas
          cases rest with
          | nil =>
              rw [follow_of_found rfl] at hrest
              obtain rfl := Reached.found.inj (Except.ok.inj hrest)
              exact Or.inr ⟨follow_of_found (by rw [hnew]; rfl) _, hwas, hend⟩
          | cons s rest =>
              obtain ⟨e, he⟩ := walk_of_not_directory hend s rest
              unfold follow at hrest
              rw [he] at hrest
              cases hrest

theorem follow_put_of_directory (hno : t.NoDirectory dir name) {segments : List Name}
    {loc : Location} (h : t.follow linkLimit here segments = .ok (.found loc))
    (hloc : t.get? loc = some .directory) :
    (t.put (name :: dir) (.file content permissions)).follow linkLimit here segments =
        .ok (.found loc) ∧
      (t.put (name :: dir) (.file content permissions)).get? loc = some .directory := by
  have hne : loc ≠ name :: dir := by
    rintro rfl
    exact hno.entry hloc
  refine ⟨(follow_put_of_found hno (Nat.le_refl _) h).resolve_right
    fun ⟨_, _, hend⟩ => hend hloc, ?_⟩
  rw [get?_put_of_ne (List.cons_ne_nil name dir) hne, hloc]

theorem locateParent_put_of_ok (hno : t.NoDirectory dir name) {path : Bytes}
    {found : Location × LastSegment} (h : t.locateParent here path = .ok found) :
    (t.put (name :: dir) (.file content permissions)).locateParent here path = .ok found := by
  obtain ⟨hne, hshort, hfollow, hget, hlast⟩ := locateParent_eq_ok_iff.mp h
  obtain ⟨hfollow, hget⟩ := follow_put_of_directory hno hfollow hget
  exact locateParent_eq_ok_iff.mpr ⟨hne, hshort, hfollow, hget, hlast⟩

theorem directoryAt_put (hno : t.NoDirectory dir name) (here : Location) (path : Bytes) :
    (t.put (name :: dir) (.file content permissions)).directoryAt here path =
      t.directoryAt here path := by
  refine Option.ext fun loc => ⟨directoryAt_of_put (List.cons_ne_nil name dir), fun h => ?_⟩
  obtain ⟨hnul, hne, hshort, hfollow, hget⟩ := directoryAt_eq_some_iff.mp h
  exact directoryAt_eq_some_iff.mpr
    ⟨hnul, hne, hshort, follow_put_of_directory hno hfollow hget⟩

end before

/-! ### Names in directories -/

section items

variable {name other : Name} {within : Location}

/-- If the name leads to anything, then to a file. -/
def LeadsToFile (t : FileTree) (dir : Location) (name : Name) : Prop :=
  ∀ e, t.entryAt dir name = .ok e → kindOf e = .file

theorem itemKind_eq_iff {kind : Kind} (hkind : kind.Followed) :
    t.itemKind within other = kind ↔ ∃ loc e,
      t.follow linkLimit within [other] = .ok (.found loc) ∧ t.get? loc = some e ∧ loc ≠ within ∧
        kindOf e = kind := by
  unfold itemKind
  cases hfollow : t.follow linkLimit within [other] with
  | error e => rcases hkind with rfl | rfl | rfl <;> simp
  | ok reached =>
      cases reached with
      | missing => rcases hkind with rfl | rfl | rfl <;> simp
      | found loc =>
          cases hget : t.get? loc with
          | none => rcases hkind with rfl | rfl | rfl <;> simp [hget]
          | some e => rcases hkind with rfl | rfl | rfl <;> simp [hget] <;> grind

/-- A name that an entry may have, and a path as well. -/
structure IsPlainName (name : Name) : Prop where
  nul : 0 ∉ name
  slash : slash ∉ name
  ne : name ≠ []
  dots : name ≠ [dot] ∧ name ≠ [dot, dot]
  short : name.length ≤ nameLimit

theorem LeadsToFile.kindOf_eq (h : t.LeadsToFile dir name) (hplain : IsPlainName name)
    {loc : Location} {e : Entry} (hfollow : t.follow linkLimit dir [name] = .ok (.found loc))
    (hget : t.get? loc = some e) : kindOf e = .file := by
  have hstart : startOf dir name = dir := by
    refine if_neg fun hhead => hplain.slash ?_
    exact List.mem_of_head? hhead
  have hpieces : Text.pieces NinjaPlan.slash name = [name] := by
    rw [Text.pieces_eq_splitOn, List.splitOn_eq_singleton hplain.slash]
  have hshort : ¬ pathLimit ≤ name.length :=
    Nat.not_le.mpr (Nat.lt_of_le_of_lt hplain.short (by decide))
  refine h e ?_
  unfold entryAt find locate
  rw [if_neg hplain.nul, if_neg hplain.ne, if_neg hshort, hstart, hpieces, hfollow]
  simp only [hget]

variable (hwell : t.WellFormed) (hplain : IsPlainName name) (hfile : t.LeadsToFile dir name)
include hwell hplain hfile

theorem LeadsToFile.kindOf_entry {e : Entry} (hget : t.get? (name :: dir) = some e)
    (hlink : ∀ target, e ≠ .link target) : kindOf e = .file := by
  refine hfile.kindOf_eq hplain (follow_of_found ?_ _) hget
  rw [walk_cons, turn_of_child hwell hget hlink]
  rfl

theorem LeadsToFile.noDirectory : t.NoDirectory dir name where
  entry := fun hget => nomatch hfile.kindOf_entry hwell hplain hget (by simp)
  link := fun _ _ loc hfollow hget => nomatch hfile.kindOf_eq hplain hfollow hget

theorem itemKind_put (hwithin : t.get? within = some .directory) {kind : Kind}
    (hkind : kind.Followed) (h : t.itemKind within other = kind) :
    (t.put (name :: dir) (.file content permissions)).itemKind within other = kind := by
  have hplace : name :: dir ≠ [] := List.cons_ne_nil name dir
  have hno := hfile.noDirectory hwell hplain
  have hapart : name :: dir ≠ within := by
    rintro rfl
    exact hno.entry hwithin
  have hnew := get?_put_self (t := t) hplace (.file content permissions)
  rw [itemKind_eq_iff hkind] at h ⊢
  obtain ⟨loc, e, hfollow, hget, hne, rfl⟩ := h
  rcases follow_put_of_found hno (Nat.le_refl _) hfollow with hsame | ⟨hthere, hwas, -⟩
  · by_cases hloc : loc = name :: dir
    · subst hloc
      have hlink := not_link_of_follow hwell (List.cons_ne_nil _ _) hfollow
      have hkindOf := hfile.kindOf_entry hwell hplain hget fun target heq =>
        hlink target (heq ▸ hget)
      exact ⟨_, _, hsame, hnew, hne, hkindOf.symm⟩
    · exact ⟨loc, e, hsame, (get?_put_of_ne hplace hloc _).trans hget, hne, rfl⟩
  · exact ⟨_, _, hthere, hnew, hapart, (hfile.kindOf_eq hplain hwas hget).symm⟩

end items
end NinjaPlan.FileTree
