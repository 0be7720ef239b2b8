import NinjaPlan.Proofs.Plan.Run

/-! # Which targets can be planned

Assembling checks targets one after the other against what it has seen.  `ValidTargets` says
what targets must be like all at once, and `Plan.exists_assemble_iff` says that the two agree:
there is a plan exactly for valid targets, whatever the entry point.

From a plan to validity, every condition is read off the invariant of the run.  In the other
direction every step succeeds (`ValidTargets.step`), because what an assembly knows, it knows of
targets that are valid together with the next one. -/

namespace NinjaPlan

variable {mapper : ObjectMapper} {entryPoint : Text} {targets : List Target}

/-! ### A plan has valid targets -/

namespace Assembly.Covers

variable {a : Assembly} (h : a.Covers mapper entryPoint targets)
include h

theorem exists_map {t : Target} (ht : t ∈ targets) {s : SourceFile} (hs : s ∈ t.sources) :
    ∃ m, mapper.map s = .ok m := by
  obtain ⟨o, -, -, hof⟩ := forall₂_exists_right h.owned ht
  obtain ⟨-, -, ⟨m, hm, -⟩, -⟩ := forall₂_exists_right hof hs
  exact ⟨m, hm⟩

theorem source_equiv {t u : Target} (ht : t ∈ targets) (hu : u ∈ targets) {m n : MappedSource}
    (hm : t.Owns mapper m) (hn : u.Owns mapper n) (ho : m.object ≈ n.object) :
    m.source ≈ n.source := by
  obtain ⟨e, he, hes, heo⟩ := h.compiled t ht m hm
  obtain ⟨f, hf, hfs, hfo⟩ := h.compiled u hu n hn
  have heq : e.object ≈ f.object :=
    Path.equiv_trans heo (Path.equiv_trans ho (Path.equiv_symm hfo))
  obtain rfl := h.distinct.eq_of_equiv he hf heq
  exact Path.equiv_trans (Path.equiv_symm hes) hfs

theorem exists_reused {before after : List Target} {t : Target}
    (hsplit : targets = before ++ t :: after) {name : Path}
    (hk : t.spec.kind = .secondary name) : ∃ u ∈ before, u.spec.name ≈ name := by
  obtain ⟨l, -, -, own, reused, -, hreuses, -⟩ := h.linked before t after hsplit
  rw [Target.Reuses, hk] at hreuses
  obtain ⟨r, hr, hname, -⟩ := hreuses
  exact ⟨r, hr, hname⟩

theorem exists_linkEdge {t : Target} (ht : t ∈ targets) :
    ∃ l ∈ a.linkEdges, l.output = t.spec.name := by
  obtain ⟨before, after, hsplit⟩ := List.mem_iff_append.mp ht
  obtain ⟨l, hl, ho, -⟩ := h.linked before t after hsplit
  exact ⟨l, hl, ho⟩

theorem not_equiv_object (hshadow : ∀ l ∈ a.linkEdges, ∀ e ∈ a.compileEdges, ¬ e.object ≈ l.output)
    {t u : Target} (ht : t ∈ targets) (hu : u ∈ targets) {m : MappedSource}
    (hm : u.Owns mapper m) : ¬ t.spec.name ≈ m.object := by
  intro ho
  obtain ⟨l, hl, hname⟩ := h.exists_linkEdge ht
  obtain ⟨e, he, -, heo⟩ := h.compiled u hu m hm
  apply hshadow l hl e he
  rw [hname]
  exact Path.equiv_trans heo (Path.equiv_symm ho)

end Assembly.Covers

theorem validTargets_of_assemble {p : Plan}
    (h : Plan.assemble targets mapper entryPoint = .ok p) : ValidTargets mapper targets := by
  obtain ⟨a, hc, hfinish⟩ := Plan.assemble_covers h
  obtain ⟨hshadow, t, hfirst, -⟩ := Assembly.finish_cases hfinish
  have hk : t.spec.kind = .primary := by simpa using List.find?_some hfirst
  exact
    { distinct := hc.names
      mapped := fun t ht s hs => hc.exists_map ht hs
      injective := fun t ht u hu m n hm hn => hc.source_equiv ht hu hm hn
      reused := fun before t after hsplit name hk => hc.exists_reused hsplit hk
      apart := fun t ht u hu m hm => hc.not_equiv_object hshadow ht hu hm
      primary := ⟨t, List.mem_of_find?_eq_some hfirst, hk⟩ }

/-! ### Valid targets have a plan -/

namespace ValidTargets

variable {done : List Target} {a : Assembly}

theorem step {t : Target} {after : List Target} (hv : ValidTargets mapper (done ++ t :: after))
    (hc : a.Covers mapper entryPoint done) : ∃ b, a.step mapper entryPoint t = .ok b := by
  have ht : t ∈ done ++ t :: after := by simp
  have howns : ∀ s ∈ t.sources, ∀ m, mapper.map s = .ok m → t.Owns mapper m :=
    fun s hs m hm => ⟨s, hs, hm⟩
  refine Assembly.step_complete ?_ ?_ ?_
  · rw [hc.objectsOf_eq_none_iff]
    intro u hu
    exact (List.pairwise_append.mp hv.distinct).2.2 u hu t List.mem_cons_self
  · refine registerSources_complete (hv.mapped t ht) ?_ ?_
    · intro e he s hs m hm ho
      obtain ⟨u, hu, hown⟩ := hc.asked e he
      exact hv.injective u (List.mem_append_left _ hu) t ht _ m hown (howns s hs m hm) ho
    · intro s hs u hu m n hm hn ho
      exact hv.injective t ht t ht m n (howns s hs m hm) (howns u hu n hn) ho
  · exact hc.reusedObjects_complete fun name hk => hv.reused done t after rfl name hk

theorem run (hv : ValidTargets mapper (done ++ targets)) (hc : a.Covers mapper entryPoint done) :
    ∃ b, Assembly.run mapper entryPoint a targets = (b, none) := by
  induction targets generalizing a done with
  | nil => exact ⟨a, rfl⟩
  | cons t targets ih =>
      obtain ⟨b, hs⟩ := hv.step hc
      have hrest : ValidTargets mapper ((done ++ [t]) ++ targets) := by simpa using hv
      obtain ⟨c, hrun⟩ := ih hrest (hc.step hs)
      refine ⟨c, ?_⟩
      rw [Assembly.run, hs]
      exact hrun

theorem exists_assemble (hv : ValidTargets mapper targets) :
    ∃ p, Plan.assemble targets mapper entryPoint = .ok p := by
  have hall : ValidTargets mapper ([] ++ targets) := hv
  have hstart : Assembly.Covers {} mapper entryPoint [] := Assembly.covers_nil
  obtain ⟨a, hrun⟩ := hall.run hstart
  have hc := Assembly.covers_of_run hrun
  have hshadow : ∀ l ∈ a.linkEdges, ∀ e ∈ a.compileEdges, ¬ e.object ≈ l.output := by
    intro l hl e he ho
    have hout : l.output ∈ targets.map fun t => t.spec.name :=
      hc.outputs ▸ List.mem_map_of_mem hl
    obtain ⟨t, ht, hname⟩ := List.mem_map.mp hout
    obtain ⟨u, hu, hown⟩ := hc.asked e he
    apply hv.apart t ht u hu _ hown
    rw [hname]
    exact Path.equiv_symm ho
  obtain ⟨p, hp⟩ := Assembly.finish_complete hshadow hv.primary
  refine ⟨p, ?_⟩
  rw [Plan.assemble, hrun]
  exact hp

end ValidTargets

/-! ### Soundness and completeness -/

/-- **Targets have a plan exactly if they are valid.**  The entry point plays no part. -/
theorem Plan.exists_assemble_iff (targets : List Target) (mapper : ObjectMapper)
    (entryPoint : Text) :
    (∃ p, Plan.assemble targets mapper entryPoint = .ok p) ↔ ValidTargets mapper targets :=
  ⟨fun ⟨_, h⟩ => validTargets_of_assemble h, fun hv => hv.exists_assemble⟩

end NinjaPlan
