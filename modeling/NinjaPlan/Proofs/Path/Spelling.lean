import NinjaPlan.Proofs.Path.Components

/-! # Spellings of a path

Paths that are the same may be written differently, but only slashes and dots can differ.  A path
is empty exactly if it has no components (`components_eq_nil_iff`), and any character but a slash
and a dot stands in the text exactly if it stands in the name of a component (`mem_text_iff`). -/

namespace NinjaPlan.Path

theorem blank_of_ofSegment {s : Text} (h : Component.ofSegment s = none) : blank s = true := by
  cases hs : blank s with
  | true => rfl
  | false => rw [ofSegment_of_not_blank hs] at h; cases h

theorem components_eq_nil_iff {p : Path} : p.components = [] ↔ p.text = [] := by
  constructor
  · intro h
    rw [components_eq, List.append_eq_nil_iff] at h
    obtain ⟨hopen, hinner⟩ := h
    rcases p.opening_cases with ⟨s, rest, -, ho⟩ | ⟨rest, -, ho⟩ | ⟨-, hroot, hcurrent⟩
    · simp [ho] at hopen
    · simp [ho] at hopen
    · obtain ⟨s, rest, hs⟩ := List.exists_cons_of_ne_nil p.segments_ne_nil
      have hblank : blank s = true := by
        rw [inner, List.filterMap_eq_nil_iff, hs] at hinner
        exact blank_of_ofSegment (hinner s List.mem_cons_self)
      have hempty : s = [] := (blank_eq_true_iff.mp hblank).resolve_right (hcurrent s rest hs)
      have hrest : rest = [] := Decidable.byContradiction fun hne => hroot s rest hs hne hempty
      have htext : joinSegments p.segments = p.text := Text.intercalate_pieces '/' p.text
      rw [← htext, hs, hempty, hrest]
      rfl
  · intro h
    have hp : p = ⟨[]⟩ := congrArg Path.mk h
    rw [hp]
    rfl

/-! ### Characters -/

theorem mem_joinSegments_iff {c : Char} (hc : c ≠ '/') {segs : List Text} :
    c ∈ joinSegments segs ↔ ∃ s ∈ segs, c ∈ s := by
  induction segs with
  | nil => simp [joinSegments]
  | cons s segs ih =>
      rw [joinSegments] at ih ⊢
      by_cases hsegs : segs = []
      · simp [hsegs]
      · rw [List.intercalate_cons_of_ne_nil hsegs]
        simp [ih, hc]

theorem text_of_ofSegment {s : Text} {c : Component} (h : Component.ofSegment s = some c) :
    c.text = s := by
  unfold Component.ofSegment at h
  split at h
  · cases h
  · split at h
    · next hup => obtain rfl := Option.some.inj h; exact hup.symm
    · obtain rfl := Option.some.inj h; rfl

theorem normal_mem_components_iff {p : Path} {name : Text} :
    .normal name ∈ p.components ↔ .normal name ∈ p.inner := by
  rw [components_eq, List.mem_append]
  rcases p.opening_fst_cases with ho | ho | ho <;> simp [ho]

/-- A character that is neither a slash nor a dot belongs to a name. -/
theorem mem_text_iff {p : Path} {c : Char} (hslash : c ≠ '/') (hdot : c ≠ '.') :
    c ∈ p.text ↔ ∃ name, .normal name ∈ p.components ∧ c ∈ name := by
  have htext : joinSegments p.segments = p.text := Text.intercalate_pieces '/' p.text
  rw [← htext, mem_joinSegments_iff hslash]
  constructor
  · rintro ⟨s, hs, hc⟩
    refine ⟨s, normal_mem_components_iff.mpr (List.mem_filterMap.mpr ⟨s, hs, ?_⟩), hc⟩
    have hnot : ∀ t : Text, c ∉ t → s ≠ t := by
      rintro t ht rfl
      exact ht hc
    unfold Component.ofSegment
    rw [if_neg (not_or.mpr ⟨hnot _ (by simp), hnot _ (by simpa using hdot)⟩),
      if_neg (hnot _ (by simpa using hdot))]
  · rintro ⟨name, hname, hc⟩
    obtain ⟨s, hs, hsome⟩ := List.mem_filterMap.mp (normal_mem_components_iff.mp hname)
    obtain rfl : name = s := text_of_ofSegment hsome
    exact ⟨name, hs, hc⟩

/-- Paths that are the same hold the same characters, slashes and dots aside. -/
theorem mem_text_of_equiv {p q : Path} (h : p ≈ q) {c : Char} (hslash : c ≠ '/') (hdot : c ≠ '.') :
    c ∈ p.text ↔ c ∈ q.text := by
  rw [mem_text_iff hslash hdot, mem_text_iff hslash hdot, equiv_def.mp h]

theorem text_eq_nil_of_equiv {p q : Path} (h : p ≈ q) : p.text = [] ↔ q.text = [] := by
  rw [← components_eq_nil_iff, ← components_eq_nil_iff, equiv_def.mp h]

end NinjaPlan.Path
