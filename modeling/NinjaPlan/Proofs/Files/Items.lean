import Mathlib.Data.List.Nodup
import NinjaPlan.Proofs.Files.Overwrite

/-! # What is in a directory

The items of a directory are one for each entry in it (`mem_items_iff`), and if no location has two
entries, they stand in the order of their names, which are different (`inNameOrder_items`).  So they
are known by which items there are (`InNameOrder.eq_of_mem_iff`).

A file that is put in a place therefore changes the items of its own directory at most, and there
only the item of its name (`items_put`, `filter_items_put`), as long as what can be followed stays
what it is. -/

namespace NinjaPlan.FileTree

variable {t : FileTree} {dir within : Location} {name : Name}

/-! ### Order -/

/-- No location has two entries. -/
def Single (t : FileTree) : Prop := (t.entries.map Prod.fst).Nodup

/-- Different names, in the order of their bytes. -/
def InNameOrder (items : List Item) : Prop :=
  items.Pairwise fun a b => a.name ≤ b.name ∧ a.name ≠ b.name

theorem InNameOrder.eq_of_mem_iff {l m : List Item} (hl : InNameOrder l) (hm : InNameOrder m)
    (h : ∀ item, item ∈ l ↔ item ∈ m) : l = m := by
  have hnodup : ∀ {l : List Item}, InNameOrder l → l.Nodup := fun hl =>
    hl.imp fun ⟨_, hne⟩ heq => hne (congrArg Item.name heq)
  refine List.Perm.eq_of_pairwise ?_ hl hm
    ((List.perm_ext_iff_of_nodup (hnodup hl) (hnodup hm)).mpr h)
  rintro a b - - ⟨hab, hne⟩ ⟨hba, -⟩
  exact absurd (List.le_antisymm hab hba) hne

theorem InNameOrder.filter {l : List Item} (hl : InNameOrder l) (p : Item → Bool) :
    InNameOrder (l.filter p) :=
  List.Pairwise.filter p hl

theorem child_eq_some_iff {loc : Location} {e : Entry} {child : Name × Entry} :
    (match loc with
      | [] => none
      | name :: above => if above = dir then some (name, e) else none) = some child ↔
      (loc, e) = (child.1 :: dir, child.2) := by
  obtain ⟨name, e'⟩ := child
  cases loc with
  | nil => simp
  | cons name' above => grind

theorem mem_children_iff {child : Name × Entry} :
    child ∈ t.children dir ↔ (child.1 :: dir, child.2) ∈ t.entries := by
  unfold children
  rw [List.mem_filterMap]
  constructor
  · rintro ⟨⟨loc, e⟩, hmem, hchild⟩
    rwa [← child_eq_some_iff.mp hchild]
  · intro hmem
    exact ⟨_, hmem, child_eq_some_iff.mpr rfl⟩

theorem exists_mem_entries_iff :
    (∃ e, (name :: dir, e) ∈ t.entries) ↔ t.get? (name :: dir) ≠ none := by
  constructor
  · rintro ⟨e, hmem⟩ hnone
    exact absurd (List.lookup_eq_none_iff.mp hnone _ hmem) (by simp)
  · intro hget
    obtain ⟨e, he⟩ := Option.ne_none_iff_exists'.mp hget
    exact ⟨e, mem_entries_of_get? he⟩

theorem items_eq (t : FileTree) (dir : Location) : t.items dir =
    ((t.children dir).map fun child => (⟨child.1, t.itemKind dir child.1⟩ : Item)).mergeSort
      fun a b => decide (a.name ≤ b.name) := rfl

theorem mem_items_iff {item : Item} : item ∈ t.items dir ↔
    t.get? (item.name :: dir) ≠ none ∧ item.kind = t.itemKind dir item.name := by
  rw [items_eq, List.mem_mergeSort, List.mem_map, ← exists_mem_entries_iff]
  constructor
  · rintro ⟨⟨name, e⟩, hmem, rfl⟩
    exact ⟨⟨e, mem_children_iff.mp hmem⟩, rfl⟩
  · rintro ⟨⟨e, hmem⟩, hkind⟩
    refine ⟨(item.name, e), mem_children_iff.mpr hmem, ?_⟩
    dsimp only
    rw [← hkind]

theorem inNameOrder_items (h : t.Single) (dir : Location) : InNameOrder (t.items dir) := by
  have hchildren : (t.children dir).Pairwise fun a b => a.1 ≠ b.1 := by
    unfold children
    rw [List.pairwise_filterMap]
    refine (List.pairwise_map.mp h).imp ?_
    rintro ⟨loc, e⟩ ⟨loc', e'⟩ hne c hc c' hc' heq
    have hloc := (Prod.mk.inj (child_eq_some_iff.mp hc)).1
    have hloc' := (Prod.mk.inj (child_eq_some_iff.mp hc')).1
    exact hne (by rw [hloc, hloc', heq])
  have hnames : ((t.children dir).map fun child =>
      (⟨child.1, t.itemKind dir child.1⟩ : Item)).Pairwise fun a b => a.name ≠ b.name :=
    List.pairwise_map.mpr hchildren
  have hsorted : (t.items dir).Pairwise fun a b => decide (a.name ≤ b.name) = true :=
    @List.pairwise_mergeSort Item (fun a b => decide (a.name ≤ b.name))
      (fun a b c hab hbc => decide_eq_true
        (List.le_trans (of_decide_eq_true hab) (of_decide_eq_true hbc)))
      (fun a b => by simpa using List.le_total a.name b.name) _
  have hapart := ((List.mergeSort_perm _ fun a b : Item => decide (a.name ≤ b.name)).pairwise_iff
    fun {a b : Item} (h : a.name ≠ b.name) => h.symm).mpr hnames
  exact (hsorted.and hapart).imp fun ⟨hle, hne⟩ => ⟨of_decide_eq_true hle, hne⟩

/-! ### A file more -/

section put

variable {content : Bytes} {permissions : Nat}

theorem single_put (h : t.Single) (place : Location) (e : Entry) : (t.put place e).Single := by
  unfold Single put erase
  rw [List.map_cons, List.nodup_cons]
  refine ⟨?_, h.sublist (List.filter_sublist.map _)⟩
  simp

theorem wellNamed_put (h : t.WellNamed) (hplain : IsPlainName name)
    (hdir : t.get? dir = some .directory) (e : Entry) : (t.put (name :: dir) e).WellNamed := by
  intro entry hentry other hother
  rcases List.mem_cons.mp hentry with rfl | hentry
  · rcases List.mem_cons.mp hother with rfl | hother
    · exact ⟨hplain.slash, hplain.ne, hplain.dots⟩
    · cases dir with
      | nil => cases hother
      | cons above names => exact h _ (mem_entries_of_get? hdir) other hother
  · exact h entry (List.mem_of_mem_filter hentry) other hother

theorem itemKind_put_self (content : Bytes) (permissions : Nat) (hplain : IsPlainName name)
    (hdir : t.get? dir = some .directory) :
    (t.put (name :: dir) (.file content permissions)).itemKind dir name = .file := by
  have hplace : name :: dir ≠ [] := List.cons_ne_nil name dir
  have hnew := get?_put_self (t := t) hplace (.file content permissions)
  have hturn : (t.put (name :: dir) (.file content permissions)).turn dir name =
      .on (name :: dir) := by
    unfold turn
    rw [get?_put_of_ne hplace List.ne_cons_self, hdir, hnew]
    simp [hplain.ne, hplain.dots, Nat.not_lt.mpr hplain.short]
  refine (itemKind_eq_iff (Or.inl rfl)).mpr
    ⟨_, _, follow_of_found ?_ _, hnew, List.ne_cons_self.symm, rfl⟩
  rw [walk_cons, hturn]
  rfl

variable (hwell : t.WellFormed) (hplain : IsPlainName name) (hfile : t.LeadsToFile dir name)
  (hwithin : t.get? within = some .directory) (hclear : ∀ item ∈ t.items within, item.kind.Followed)
include hwell hplain hfile hwithin hclear

theorem mem_items_put {item : Item} :
    item ∈ (t.put (name :: dir) (.file content permissions)).items within ↔
      item ∈ t.items within ∨ within = dir ∧ item = ⟨name, .file⟩ := by
  have hplace : name :: dir ≠ [] := List.cons_ne_nil name dir
  have hkept : ∀ other, t.get? (other :: within) ≠ none →
      (t.put (name :: dir) (.file content permissions)).itemKind within other =
        t.itemKind within other := fun other hother =>
    itemKind_put hwell hplain hfile hwithin
      (hclear ⟨other, t.itemKind within other⟩ (mem_items_iff.mpr ⟨hother, rfl⟩)) rfl
  rw [mem_items_iff, mem_items_iff]
  by_cases hnew : item.name :: within = name :: dir
  · obtain ⟨hname, rfl⟩ := List.cons.inj hnew
    obtain ⟨other, kind⟩ := item
    subst hname
    have hself := itemKind_put_self (t := t) content permissions hplain hwithin
    have hget := get?_put_self (t := t) hplace (.file content permissions)
    simp only [hself, hget, ne_eq, reduceCtorEq, not_false_eq_true, true_and, Item.mk.injEq]
    refine ⟨Or.inr, fun h => h.elim (fun ⟨hthere, hkind⟩ => ?_) id⟩
    rw [hkind, ← hkept other hthere, hself]
  · have hother : ¬ (within = dir ∧ item = ⟨name, .file⟩) := by
      rintro ⟨rfl, rfl⟩
      exact hnew rfl
    rw [get?_put_of_ne hplace hnew, or_iff_left hother]
    exact and_congr_right fun hthere => by rw [hkept item.name hthere]

variable (hsingle : t.Single)
include hsingle

/-- Nothing changes elsewhere, or if there was such a name already. -/
theorem items_put (h : within ≠ dir ∨ t.get? (name :: dir) ≠ none) :
    (t.put (name :: dir) (.file content permissions)).items within = t.items within := by
  refine (inNameOrder_items (single_put hsingle _ _) within).eq_of_mem_iff
    (inNameOrder_items hsingle within) fun item => ?_
  rw [mem_items_put hwell hplain hfile hwithin hclear, or_iff_left_of_imp]
  rintro ⟨rfl, rfl⟩
  have hthere := h.resolve_left (not_not.mpr rfl)
  have hfollowed := hclear ⟨name, t.itemKind within name⟩ (mem_items_iff.mpr ⟨hthere, rfl⟩)
  have hkept : (t.put (name :: within) (.file content permissions)).itemKind within name =
      t.itemKind within name := itemKind_put hwell hplain hfile hwithin hfollowed rfl
  rw [itemKind_put_self content permissions hplain hwithin] at hkept
  exact mem_items_iff.mpr ⟨hthere, hkept⟩

/-- Nothing changes under other names. -/
theorem filter_items_put :
    ((t.put (name :: dir) (.file content permissions)).items within).filter (·.name != name) =
      (t.items within).filter (·.name != name) := by
  refine ((inNameOrder_items (single_put hsingle _ _) within).filter _).eq_of_mem_iff
    ((inNameOrder_items hsingle within).filter _) fun item => ?_
  rw [List.mem_filter, List.mem_filter, mem_items_put hwell hplain hfile hwithin hclear, bne_iff_ne]
  refine and_congr_left fun hne => or_iff_left ?_
  rintro ⟨-, rfl⟩
  exact hne rfl

end put
end NinjaPlan.FileTree
