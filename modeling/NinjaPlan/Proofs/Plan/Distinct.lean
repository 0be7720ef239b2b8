import NinjaPlan.Plan.Assemble

/-! # Lists of distinct paths

`distinctPaths` keeps a path unless one that is the same has been kept before.
`firstSpellings` says the same without looking back: a path is kept, and all that are the same
are left out behind it.  The two agree (`distinctPaths_eq`), and `firstSpellings_append` says
what a second list adds to a first one. -/

namespace NinjaPlan

/-- Every path once, where it first occurs and as it is written there. -/
def firstSpellings : List Path → List Path
  | [] => []
  | p :: paths => p :: (firstSpellings paths).filter fun q => ¬ p ≈ q

theorem firstSpellings_sublist (paths : List Path) : (firstSpellings paths).Sublist paths := by
  induction paths with
  | nil => exact List.Sublist.slnil
  | cons p paths ih => exact (List.filter_sublist.trans ih).cons_cons p

theorem exists_mem_firstSpellings {paths : List Path} {p : Path} (h : p ∈ paths) :
    ∃ q ∈ firstSpellings paths, q ≈ p := by
  induction paths with
  | nil => cases h
  | cons r paths ih =>
      rcases List.mem_cons.mp h with rfl | h
      · exact ⟨p, List.mem_cons_self, Path.equiv_refl p⟩
      · obtain ⟨q, hq, hqp⟩ := ih h
        by_cases hrq : r ≈ q
        · exact ⟨r, List.mem_cons_self, Path.equiv_trans hrq hqp⟩
        · exact ⟨q, List.mem_cons_of_mem _ (List.mem_filter.mpr ⟨hq, decide_eq_true hrq⟩), hqp⟩

theorem firstSpellings_pairwise (paths : List Path) :
    (firstSpellings paths).Pairwise fun p q => ¬ p ≈ q := by
  induction paths with
  | nil => exact List.Pairwise.nil
  | cons p paths ih =>
      refine List.pairwise_cons.mpr ⟨?_, ih.filter _⟩
      intro q hq
      exact of_decide_eq_true (List.mem_filter.mp hq).2

theorem firstSpellings_append (paths others : List Path) :
    firstSpellings (paths ++ others) =
      firstSpellings paths ++ (firstSpellings others).filter fun q => ∀ p ∈ paths, ¬ p ≈ q := by
  induction paths with
  | nil => rw [List.filter_eq_self.mpr (by simp), List.nil_append, firstSpellings, List.nil_append]
  | cons p paths ih =>
      rw [List.cons_append, firstSpellings, ih, firstSpellings, List.filter_append,
        List.filter_filter, List.cons_append]
      congr 2
      apply List.filter_congr
      intro q _
      simp

/-- What is kept so far decides only which of the further paths are kept. -/
theorem foldl_keep_eq (kept paths : List Path) :
    paths.foldl (fun kept p => if kept.any (fun q => decide (q ≈ p)) then kept else kept ++ [p])
      kept = kept ++ (firstSpellings paths).filter fun q => ∀ k ∈ kept, ¬ k ≈ q := by
  induction paths generalizing kept with
  | nil => simp [firstSpellings]
  | cons p paths ih =>
      rw [List.foldl_cons, ih, firstSpellings, List.filter_cons]
      by_cases hany : ∃ k ∈ kept, k ≈ p
      · obtain ⟨k, hk, hkp⟩ := hany
        have hp : ¬ ∀ k ∈ kept, ¬ k ≈ p := fun hall => hall k hk hkp
        rw [if_pos (List.any_eq_true.mpr ⟨k, hk, decide_eq_true hkp⟩), if_neg (by simpa using hp),
          List.filter_filter]
        congr 1
        apply List.filter_congr
        intro q _
        have hkq : p ≈ q → k ≈ q := Path.equiv_trans hkp
        simp only [← Bool.decide_and, decide_eq_decide]
        exact ⟨fun hall => ⟨hall, fun hpq => hall k hk (hkq hpq)⟩, And.left⟩
      · have hp : ∀ k ∈ kept, ¬ k ≈ p := fun k hk hkp => hany ⟨k, hk, hkp⟩
        rw [if_neg (by simpa using hp), if_pos (by simpa using hp), List.append_assoc,
          List.singleton_append, List.filter_filter]
        congr 2
        apply List.filter_congr
        intro q _
        simp [or_imp, forall_and, Bool.and_comm]

theorem distinctPaths_eq (paths : List Path) : distinctPaths paths = firstSpellings paths := by
  rw [distinctPaths, foldl_keep_eq]
  simp

end NinjaPlan
