import NinjaPlan.Proofs.Plan.Edges

/-! # The paths of a plan

Every path of a plan comes from a target: it is the target's name, or the source or the object of
one of its sources (`Plan.exists_brings`).  In the other direction a path that a target brings in
need not stand in the plan as it is spelled there, since the first spelling of a path is kept; but
the plan has a path that is the same (`Plan.exists_path_of_brings`).  So what does not depend on
the spelling holds of all paths of the plan exactly if it holds of all that the targets bring in
(`Plan.forall_paths_iff`). -/

namespace NinjaPlan

/-- The target brings the path into a plan. -/
def Target.Brings (t : Target) (mapper : ObjectMapper) (q : Path) : Prop :=
  q = t.spec.name ∨ ∃ m, t.Owns mapper m ∧ (q = m.source ∨ q = m.object)

/-- The paths of a plan, in the order in which they are written down. -/
def Plan.paths (p : Plan) : List Path :=
  p.compileEdges.flatMap (fun e => [e.object, e.source]) ++
    p.linkEdges.flatMap (fun l => l.output :: l.inputs) ++ [p.defaultTarget]

variable {mapper : ObjectMapper} {entryPoint : Text} {targets : List Target} {p : Plan}

theorem Plan.mem_paths_iff {q : Path} : q ∈ p.paths ↔
    (∃ e ∈ p.compileEdges, q = e.object ∨ q = e.source) ∨
      (∃ l ∈ p.linkEdges, q = l.output ∨ q ∈ l.inputs) ∨ q = p.defaultTarget := by
  simp [Plan.paths]

theorem Plan.exists_brings (h : Plan.assemble targets mapper entryPoint = .ok p) {q : Path}
    (hq : q ∈ p.paths) : ∃ t ∈ targets, t.Brings mapper q := by
  obtain ⟨a, hc, hfinish⟩ := Plan.assemble_covers h
  obtain ⟨-, first, hfirst, rfl⟩ := Assembly.finish_cases hfinish
  rcases Plan.mem_paths_iff.mp hq with ⟨e, he, hq⟩ | ⟨l, hl, rfl | hq⟩ | rfl
  · obtain ⟨t, ht, hown⟩ := hc.asked e he
    exact ⟨t, ht, Or.inr ⟨_, hown, hq.symm⟩⟩
  · obtain ⟨before, t, after, hsplit, hname, -⟩ := hc.exists_links hl
    exact ⟨t, by simp [hsplit], Or.inl hname⟩
  · obtain ⟨t, ht, m, hown, ho⟩ := hc.exists_owner_of_input hl hq
    exact ⟨t, ht, Or.inr ⟨m, hown, Or.inr ho.symm⟩⟩
  · exact ⟨first, List.mem_of_find?_eq_some hfirst, Or.inl rfl⟩

theorem Plan.exists_path_of_brings (h : Plan.assemble targets mapper entryPoint = .ok p)
    {t : Target} (ht : t ∈ targets) {q : Path} (hq : t.Brings mapper q) :
    ∃ r ∈ p.paths, r ≈ q := by
  obtain ⟨a, hc, hfinish⟩ := Plan.assemble_covers h
  obtain ⟨-, first, -, rfl⟩ := Assembly.finish_cases hfinish
  rcases hq with rfl | ⟨m, hown, hq⟩
  · obtain ⟨l, hl, hname⟩ := hc.exists_linkEdge ht
    refine ⟨l.output, Plan.mem_paths_iff.mpr (Or.inr (Or.inl ⟨l, hl, Or.inl rfl⟩)), ?_⟩
    rw [hname]
  · obtain ⟨e, he, hsource, hobject⟩ := hc.compiled t ht m hown
    rcases hq with rfl | rfl
    · exact ⟨e.source, Plan.mem_paths_iff.mpr (Or.inl ⟨e, he, Or.inr rfl⟩), hsource⟩
    · exact ⟨e.object, Plan.mem_paths_iff.mpr (Or.inl ⟨e, he, Or.inl rfl⟩), hobject⟩

theorem Plan.forall_paths_iff (h : Plan.assemble targets mapper entryPoint = .ok p)
    {P : Path → Prop} (hP : ∀ q r : Path, q ≈ r → P q → P r) :
    (∀ q ∈ p.paths, P q) ↔ ∀ t ∈ targets, ∀ q, t.Brings mapper q → P q := by
  constructor
  · intro hall t ht q hq
    obtain ⟨r, hr, hrq⟩ := Plan.exists_path_of_brings h ht hq
    exact hP r q hrq (hall r hr)
  · intro hall q hq
    obtain ⟨t, ht, hbrings⟩ := Plan.exists_brings h hq
    exact hall t ht q hbrings

end NinjaPlan
