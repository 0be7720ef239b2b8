import NinjaPlan.Proofs.Path.Normal

/-! # What a path means

A path leads from every directory to one directory, `applyTo`.  An absolute path goes down from the
root, whatever directory one stands in (`applyTo_of_absolute`); a relative one drops as many names
as it climbs and adds its own (`applyTo_of_relative`).

Normalizing keeps the meaning (`applyTo_normalize`).  Conversely the meaning decides the normal
form: a directory whose names occur in neither of two paths shows how far each of them climbs,
whether it starts at the root and which names it adds (`exists_telling_stack`).  So paths have one
normal form exactly if they mean the same (`normalize_canonical`). -/

namespace NinjaPlan.Path

/-- The path holds no `.`, and every `..` stands behind nothing but other `..`. -/
structure IsNormal (p : Path) : Prop where
  current : .current ∉ p.components
  parent : p.components.Pairwise fun c d => d = .parent → c = .parent

theorem isNormal_normalize (p : Path) : p.normalize.IsNormal := by
  have hnames : (p.descent.map Component.normal).Pairwise
      fun c d => d = Component.parent → c = .parent :=
    List.pairwise_map.mpr (List.pairwise_of_forall (by simp))
  cases habs : p.isAbsolute with
  | true =>
      have hcomp := p.components_normalize.trans (normalComponents_of_absolute habs)
      exact ⟨by simp [hcomp], by rw [hcomp]; exact List.pairwise_cons.mpr ⟨by simp, hnames⟩⟩
  | false =>
      have hcomp := p.components_normalize.trans (normalComponents_of_relative habs)
      refine ⟨by simp [hcomp, List.mem_replicate], ?_⟩
      rw [hcomp, List.pairwise_append]
      exact ⟨List.pairwise_replicate.mpr (Or.inr id), hnames, by simp⟩

/-! ### Where paths lead -/

/-- A directory of names, innermost first, as the components of its path, last first. -/
def rooted (stack : List Text) : List Component := stack.map .normal ++ [.root]

theorem rooted_injective : Function.Injective rooted := by
  intro stack stack' h
  have hnormal : Function.Injective Component.normal := fun _ _ h => Component.normal.inj h
  exact hnormal.list_map (List.append_cancel_right h)

theorem pushNormal_rooted {c : Component} (hc : c ≠ .root) (stack : List Text) :
    pushNormal (rooted stack) c = rooted (c.applyTo stack) := by
  cases c with
  | root => exact absurd rfl hc
  | current => cases stack <;> rfl
  | parent => cases stack <;> rfl
  | normal name => exact pushNormal_normal _ name

theorem foldl_pushNormal_rooted {cs : List Component} (h : ∀ c ∈ cs, c ≠ .root)
    (stack : List Text) :
    cs.foldl pushNormal (rooted stack) = rooted (cs.foldl (fun s c => c.applyTo s) stack) := by
  induction cs generalizing stack with
  | nil => rfl
  | cons c cs ih =>
      obtain ⟨hc, hcs⟩ := List.forall_mem_cons.mp h
      rw [List.foldl_cons, pushNormal_rooted hc, ih hcs, List.foldl_cons]

/-- The opening dot of a relative path leads nowhere. -/
theorem applyTo_eq_inner {p : Path} (h : p.isAbsolute = false) (stack : List Text) :
    p.applyTo stack = p.inner.foldl (fun s c => c.applyTo s) stack := by
  rw [applyTo, components_eq, opening_fst, h]
  by_cases hdot : p.segments.head? = some ['.'] <;> simp [hdot, Component.applyTo]

/-- A relative path drops as many names as it climbs and adds its own. -/
theorem applyTo_of_relative {p : Path} (h : p.isAbsolute = false) (stack : List Text) :
    p.applyTo stack = p.descent.reverse ++ stack.drop p.climb := by
  have hinner : ∀ c ∈ p.inner, c ≠ .root := fun _ hc => (isInner_of_mem_inner hc).1
  apply rooted_injective
  rw [applyTo_eq_inner h, ← foldl_pushNormal_rooted hinner]
  refine ((relative_spec h).2 stack).trans ?_
  simp [rooted]

/-- An absolute path leads down its names from the root. -/
theorem applyTo_of_absolute {p : Path} (h : p.isAbsolute = true) (stack : List Text) :
    p.applyTo stack = p.descent.reverse := by
  have hinner : ∀ c ∈ p.inner, c ≠ .root := fun _ hc => (isInner_of_mem_inner hc).1
  have hnormal : p.components.foldl pushNormal [] = rooted p.descent.reverse := by
    have hreverse := congrArg List.reverse (normalComponents_of_absolute h)
    simpa [normalComponents, rooted] using hreverse
  apply rooted_injective
  rw [← hnormal, applyTo, components_of_absolute h, List.foldl_cons, List.foldl_cons]
  exact (foldl_pushNormal_rooted hinner []).symm

/-- The normal form leads where the path leads. -/
theorem applyTo_normalize (p : Path) : p.normalize.applyTo = p.applyTo := by
  funext stack
  cases h : p.isAbsolute with
  | true =>
      rw [applyTo_of_absolute h, applyTo_of_absolute (p.isAbsolute_normalize.trans h),
        descent_normalize]
  | false =>
      rw [applyTo_of_relative h, applyTo_of_relative (p.isAbsolute_normalize.trans h),
        descent_normalize, climb_normalize]

/-! ### Telling paths apart -/

/-- How many names are left of a directory that is `n` deep. -/
def kept (p : Path) (n : Nat) : Nat := if p.isAbsolute then 0 else n - p.climb

/-- From a directory that repeats one name, a path leads to its own names above what it has left. -/
theorem applyTo_replicate (p : Path) (n : Nat) (x : Text) :
    p.applyTo (List.replicate n x) = p.descent.reverse ++ List.replicate (p.kept n) x := by
  cases h : p.isAbsolute with
  | true => simp [applyTo_of_absolute h, kept, h]
  | false => simp [applyTo_of_relative h, kept, h]

/-- In a directory deeper than both climb, only an absolute path leaves nothing, and relative ones
leave the less the more they climb. -/
theorem normalComponents_eq_of_kept {p q : Path} {n : Nat} (hp : p.climb < n) (hq : q.climb < n)
    (hkept : p.kept n = q.kept n) (hdescent : p.descent = q.descent) :
    p.normalComponents = q.normalComponents := by
  unfold kept at hkept
  cases habs : p.isAbsolute with
  | true =>
      cases habs' : q.isAbsolute with
      | true => rw [normalComponents_of_absolute habs, normalComponents_of_absolute habs', hdescent]
      | false =>
          rw [habs, habs', if_pos rfl, if_neg Bool.false_ne_true] at hkept
          omega
  | false =>
      cases habs' : q.isAbsolute with
      | true =>
          rw [habs, habs', if_pos rfl, if_neg Bool.false_ne_true] at hkept
          omega
      | false =>
          rw [habs, habs', if_neg Bool.false_ne_true, if_neg Bool.false_ne_true] at hkept
          have hclimb : p.climb = q.climb := by omega
          rw [normalComponents_of_relative habs, normalComponents_of_relative habs', hdescent,
            hclimb]

/-- There is a name other than those given. -/
theorem exists_fresh_name (names : List Text) : ∃ x, IsName x ∧ x ∉ names := by
  refine ⟨List.replicate (names.flatten.length + 1) 'a', ⟨?_, ?_, ?_⟩, fun hmem => ?_⟩
  · simp [List.mem_replicate]
  · simp [List.replicate_succ, blank]
  · simp [List.replicate_succ]
  · have hlength := (List.sublist_flatten_of_mem hmem).length_le
    rw [List.length_replicate] at hlength
    omega

/-- Some directory tells two paths apart unless they have one normal form. -/
theorem exists_telling_stack (p q : Path) : ∃ stack, (∀ name ∈ stack, IsName name) ∧
    (p.applyTo stack = q.applyTo stack → p.normalize = q.normalize) := by
  obtain ⟨x, hx, hfresh⟩ := exists_fresh_name (p.descent ++ q.descent)
  obtain ⟨hp, hq⟩ := not_or.mp (mt List.mem_append.mpr hfresh)
  refine ⟨List.replicate (p.climb + q.climb + 1) x, ?_, fun h => ?_⟩
  · intro name hname
    rwa [List.eq_of_mem_replicate hname]
  · rw [applyTo_replicate, applyTo_replicate] at h
    have hkept : p.kept (p.climb + q.climb + 1) = q.kept (p.climb + q.climb + 1) := by
      have hcount := congrArg (List.count x) h
      simpa [List.count_eq_zero.mpr hp, List.count_eq_zero.mpr hq] using hcount
    have hdescent : p.descent = q.descent := by
      rw [hkept] at h
      exact List.reverse_injective (List.append_cancel_right h)
    exact normalize_eq_iff.mpr
      (normalComponents_eq_of_kept (by omega) (by omega) hkept hdescent)

/-- **The normal form is canonical.**  It leads from every directory where the path leads, and has
no `.` and no `..` behind the root or a name; two paths have one normal form, written the same,
exactly if they lead to the same place from every directory, for which it is enough to look at one;
and normalizing again changes nothing. -/
theorem normalize_canonical (p q : Path) :
    p.normalize.applyTo = p.applyTo ∧ p.normalize.IsNormal ∧
      (p.normalize = q.normalize ↔ p.applyTo = q.applyTo) ∧
      (∃ stack, (∀ name ∈ stack, IsName name) ∧
        (p.normalize = q.normalize ↔ p.applyTo stack = q.applyTo stack)) ∧
      p.normalize.normalize = p.normalize := by
  have hsame : p.normalize = q.normalize → p.applyTo = q.applyTo := fun h => by
    rw [← applyTo_normalize p, h, applyTo_normalize]
  obtain ⟨stack, hnames, htell⟩ := exists_telling_stack p q
  exact ⟨p.applyTo_normalize, p.isNormal_normalize, ⟨hsame, fun h => htell (congrFun h stack)⟩,
    ⟨stack, hnames, fun h => congrFun (hsame h) stack, htell⟩,
    normalize_eq_iff.mpr p.normalComponents_normalize⟩

end NinjaPlan.Path
