import Mathlib.Data.List.Nodup
import Mathlib.Data.List.Perm.Subperm
import NinjaPlan.Files.Replace
import NinjaPlan.Proofs.Files.Overwrite
import NinjaPlan.Proofs.Text.Utf8

/-! # Temporary files

The temporary file of a replacement has a name of its kind, `IsTemporaryName`, that no entry of its
directory has (`get?_freshName`): the names tried are different (`temporaryName_injective`) and there
are more of them than entries.  So it is an entry more while it is there, and when it is gone the
tree is the one before (`erase_put_of_free`). -/

namespace NinjaPlan.FileTree

variable {t : FileTree} {here dir place : Location}

/-! ### Names of temporary files -/

/-- A name that a temporary file may have: letters and digits stand between its start and its end. -/
def IsTemporaryName (name : Name) : Prop :=
  ∃ middle : Text, (∀ c ∈ middle, c.isAlphanum = true) ∧
    name = Utf8.encode (temporaryStart ++ middle ++ temporaryEnd)

/-- The digits in the name of a temporary file. -/
def temporaryDigits (n : Nat) : Text :=
  List.replicate (6 - (Text.ofNat n).length) '0' ++ Text.ofNat n

theorem temporaryName_eq (n : Nat) :
    temporaryName n = Utf8.encode (temporaryStart ++ temporaryDigits n ++ temporaryEnd) := rfl

theorem ofNat_eq_toDigits (n : Nat) : Text.ofNat n = Nat.toDigits 10 n := by
  rw [Text.ofNat, Nat.toString_eq_ofList_toDigits, String.toList_ofList]

theorem isTemporaryName_temporaryName (n : Nat) : IsTemporaryName (temporaryName n) := by
  refine ⟨temporaryDigits n, fun c hc => ?_, temporaryName_eq n⟩
  rcases List.mem_append.mp hc with hc | hc
  · rw [List.eq_of_mem_replicate hc]
    rfl
  · rw [ofNat_eq_toDigits] at hc
    have hdigit := Nat.isDigit_of_mem_toDigits (by decide) (by decide) hc
    simp [Char.isAlphanum, hdigit]

theorem ofDigitChars_temporaryDigits (n : Nat) : Nat.ofDigitChars 10 (temporaryDigits n) 0 = n := by
  have hzeros : ∀ k, Nat.ofDigitChars 10 (List.replicate k '0') 0 = 0 := by
    intro k
    induction k with
    | zero => rfl
    | succ k ih => rw [List.replicate_succ, Nat.ofDigitChars_cons]; exact ih
  rw [temporaryDigits, Nat.ofDigitChars_append, hzeros, ofNat_eq_toDigits,
    Nat.ofDigitChars_toDigits (by decide) (by decide)]

theorem temporaryName_injective {n m : Nat} (h : temporaryName n = temporaryName m) : n = m := by
  have htext := Utf8.encode_injective h
  rw [List.append_left_inj, List.append_right_inj] at htext
  rw [← ofDigitChars_temporaryDigits n, ← ofDigitChars_temporaryDigits m]
  exact congrArg (Nat.ofDigitChars 10 · 0) htext

/-! ### A name that is not in use -/

/-- The name that is found is not in use, unless all those tried are. -/
theorem unusedName_cases (fuel n : Nat) : t.get? (t.unusedName dir fuel n :: dir) = none ∨
    ∀ i < fuel, t.get? (temporaryName (n + i) :: dir) ≠ none := by
  induction fuel generalizing n with
  | zero => exact Or.inr fun i hi => absurd hi (Nat.not_lt_zero i)
  | succ fuel ih =>
      unfold unusedName
      by_cases hname : t.get? (temporaryName n :: dir) = none
      · rw [if_pos hname]
        exact Or.inl hname
      · rw [if_neg hname]
        rcases ih (n + 1) with hfound | hnone
        · exact Or.inl hfound
        · refine Or.inr fun i hi => ?_
          cases i with
          | zero => exact hname
          | succ i =>
              have hnext := hnone i (Nat.lt_of_succ_lt_succ hi)
              rwa [Nat.add_assoc, Nat.add_comm 1 i] at hnext

/-- There are more names to try than entries. -/
theorem get?_freshName (t : FileTree) (dir : Location) :
    t.get? (t.freshName dir :: dir) = none := by
  refine (unusedName_cases (t.entries.length + 1) 0).resolve_right fun hused => ?_
  have hnodup : ((List.range (t.entries.length + 1)).map fun n => temporaryName n :: dir).Nodup :=
    List.Nodup.map (fun _ _ h => temporaryName_injective (List.cons.inj h).1) List.nodup_range
  have htaken : ((List.range (t.entries.length + 1)).map fun n => temporaryName n :: dir) ⊆
      t.entries.map Prod.fst := by
    intro loc hloc
    obtain ⟨i, hi, rfl⟩ := List.mem_map.mp hloc
    have hi := hused i (List.mem_range.mp hi)
    rw [Nat.zero_add] at hi
    obtain ⟨e, he⟩ := Option.ne_none_iff_exists'.mp hi
    exact List.mem_map.mpr ⟨_, mem_entries_of_get? he, rfl⟩
  have hlength := (List.subperm_of_subset hnodup htaken).length_le
  simp only [List.length_map, List.length_range] at hlength
  omega

theorem isTemporaryName_unusedName (fuel n : Nat) :
    IsTemporaryName (t.unusedName dir fuel n) := by
  induction fuel generalizing n with
  | zero => exact isTemporaryName_temporaryName n
  | succ fuel ih =>
      unfold unusedName
      split_ifs
      · exact isTemporaryName_temporaryName n
      · exact ih (n + 1)

theorem isTemporaryName_freshName (t : FileTree) (dir : Location) :
    IsTemporaryName (t.freshName dir) :=
  isTemporaryName_unusedName _ _

/-! ### Putting and taking away -/

theorem erase_put (t : FileTree) (place : Location) (e : Entry) :
    (t.put place e).erase place = t.erase place := by
  simp [put, erase]

theorem put_put (t : FileTree) (place : Location) (e e' : Entry) :
    (t.put place e).put place e' = t.put place e' := by
  rw [put, erase_put, put]

theorem erase_of_free (hfree : t.get? place = none) : t.erase place = t := by
  have hkept : ∀ e ∈ t.entries, (e.1 != place) = true := by
    rintro ⟨loc, e⟩ he
    cases place with
    | nil => cases hfree
    | cons name above =>
        have hne := List.lookup_eq_none_iff.mp hfree _ he
        rw [bne_iff_ne] at hne ⊢
        exact hne.symm
  rw [erase, List.filter_eq_self.mpr hkept]

/-- What is put where nothing was can be taken away without a trace. -/
theorem erase_put_of_free (hfree : t.get? place = none) (e : Entry) :
    (t.put place e).erase place = t := by
  rw [erase_put, erase_of_free hfree]

end NinjaPlan.FileTree
