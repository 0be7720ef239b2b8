import NinjaPlan.Proofs.Files.Items

/-! # Trees with one view

Where a path leads and what is in a directory is told by `get?` alone (`directoryAt_congr`,
`items_congr`).  A tree without double entries has the same view in whatever order its entries are
(`get?_of_perm`), so this order does not matter for either. -/

namespace NinjaPlan.FileTree

variable {t u : FileTree}

/-! ### The view of entries -/

/-- Without double entries every entry is seen. -/
theorem get?_eq_some_iff (h : t.Single) {name : Name} {above : Location} {e : Entry} :
    t.get? (name :: above) = some e ↔ (name :: above, e) ∈ t.entries := by
  refine ⟨mem_entries_of_get?, fun hmem => ?_⟩
  obtain ⟨before, after, hsplit⟩ := List.append_of_mem hmem
  have hbefore : name :: above ∉ before.map Prod.fst := by
    have hlocs : (t.entries.map Prod.fst).Nodup := h
    rw [hsplit, List.map_append, List.map_cons, List.nodup_middle, List.nodup_cons] at hlocs
    exact fun hmem => hlocs.1 (List.mem_append_left _ hmem)
  refine List.lookup_eq_some_iff.mpr ⟨before, after, hsplit, fun earlier hearlier => ?_⟩
  rw [bne_iff_ne]
  exact fun hsame => hbefore (hsame ▸ List.mem_map_of_mem hearlier)

/-- The order of the entries is not seen. -/
theorem get?_of_perm (h : t.Single) (hperm : u.entries.Perm t.entries) : u.get? = t.get? := by
  have hu : u.Single := (hperm.map Prod.fst).nodup_iff.mpr h
  funext loc
  cases loc with
  | nil => rfl
  | cons name above =>
      ext e
      rw [get?_eq_some_iff hu, get?_eq_some_iff h, hperm.mem_iff]

/-! ### What the view tells -/

section congr

variable (h : u.get? = t.get?)
include h

theorem walk_congr (here : Location) (segments : List Name) :
    u.walk here segments = t.walk here segments := by
  induction segments generalizing here with
  | nil => rfl
  | cons s rest ih =>
      have hturn : u.turn here s = t.turn here s := by
        unfold turn
        rw [h]
      rw [walk_cons, walk_cons, hturn]
      cases t.turn here s with
      | on loc => exact ih loc
      | missing | link | refused => rfl

theorem follow_congr (links : Nat) (here : Location) (segments : List Name) :
    u.follow links here segments = t.follow links here segments := by
  induction links generalizing here segments with
  | zero =>
      unfold follow
      rw [walk_congr h]
      cases t.walk here segments <;> rfl
  | succ links ih =>
      unfold follow
      rw [walk_congr h]
      cases t.walk here segments with
      | link above target rest => exact ih _ _
      | found | missing | refused => rfl

theorem directoryAt_congr (here : Location) (path : Bytes) :
    u.directoryAt here path = t.directoryAt here path := by
  unfold directoryAt find locate
  rw [follow_congr h, h]

theorem itemKind_congr (dir : Location) (name : Name) :
    u.itemKind dir name = t.itemKind dir name := by
  unfold itemKind
  rw [follow_congr h, h]

theorem items_congr (ht : t.Single) (hu : u.Single) (dir : Location) :
    u.items dir = t.items dir := by
  refine (inNameOrder_items hu dir).eq_of_mem_iff (inNameOrder_items ht dir) fun item => ?_
  rw [mem_items_iff, mem_items_iff, h, itemKind_congr h]

end congr

end NinjaPlan.FileTree
