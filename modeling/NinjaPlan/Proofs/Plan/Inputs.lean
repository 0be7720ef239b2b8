import NinjaPlan.Proofs.Plan.Edges

/-! # What a link edge links

The inputs of a target's link edge are the target's own objects, followed by those of the target
it reuses without the entry point, each path once and where it first occurs
(`Plan.linkEdge_inputs`).  The entry point is left out by the source's stem; since sources of one
object have one stem, it cannot come back through another target that shares the source. -/

namespace NinjaPlan

variable {mapper : ObjectMapper} {entryPoint : Text} {targets : List Target} {p : Plan}

/-- The inputs in order: the own objects, then those of the reused target's sources but for the
entry point, as far as they are not listed yet. -/
def Target.LinksInOrder (mapper : ObjectMapper) (entryPoint : Text) (before : List Target)
    (t : Target) (inputs : List Path) : Prop :=
  ∃ own, List.Forall₂ mapper.HasObject t.sources own ∧
    match t.spec.kind with
    | .primary => inputs = firstSpellings own
    | .secondary name => ∃ r ∈ before, r.spec.name ≈ name ∧ ∃ reused,
        List.Forall₂ mapper.HasObject (r.sources.filter fun s => s.stem ≠ some entryPoint) reused ∧
        inputs = firstSpellings own ++
          (firstSpellings reused).filter fun q => ∀ o ∈ own, ¬ o ≈ q

theorem Target.Links.inOrder {before : List Target} {t : Target} {inputs : List Path}
    (h : t.Links mapper entryPoint before inputs) :
    t.LinksInOrder mapper entryPoint before inputs := by
  obtain ⟨own, reused, hown, hreuses, rfl⟩ := h
  refine ⟨own, hown, ?_⟩
  unfold Target.Reuses at hreuses
  cases hk : t.spec.kind with
  | primary =>
      simp only [hk] at hreuses ⊢
      rw [hreuses, List.append_nil, distinctPaths_eq]
  | secondary name =>
      simp only [hk] at hreuses ⊢
      obtain ⟨r, hr, hname, hreused⟩ := hreuses
      exact ⟨r, hr, hname, reused, hreused, by rw [distinctPaths_eq, firstSpellings_append]⟩

/-- Sources of one object are one source. -/
theorem Assembly.Covers.path_equiv {a : Assembly} (h : a.Covers mapper entryPoint targets)
    {t u : Target} (ht : t ∈ targets) (hu : u ∈ targets) {s v : SourceFile} (hs : s ∈ t.sources)
    (hv : v ∈ u.sources) {o o' : Path} (ho : mapper.HasObject s o) (ho' : mapper.HasObject v o')
    (hoo : o ≈ o') : s.path ≈ v.path := by
  obtain ⟨m, hm, rfl⟩ := ho
  obtain ⟨n, hn, rfl⟩ := ho'
  exact ObjectMapper.path_equiv hm hn (h.source_equiv ht hu ⟨s, hs, hm⟩ ⟨v, hv, hn⟩ hoo)

/-- The object of an entry point is linked only where the entry point is an own source. -/
theorem Assembly.Covers.mem_sources_of_entryPoint {a : Assembly}
    (h : a.Covers mapper entryPoint targets) {before after : List Target} {t : Target}
    (hsplit : targets = before ++ t :: after) {inputs : List Path}
    (hlinks : t.Links mapper entryPoint before inputs) {u : Target} (hu : u ∈ targets)
    {s : SourceFile} (hs : s ∈ u.sources) (hstem : s.stem = some entryPoint) {o i : Path}
    (ho : mapper.HasObject s o) (hi : i ∈ inputs) (hoi : o ≈ i) :
    ∃ v ∈ t.sources, v.path ≈ s.path := by
  rcases hlinks.takes hi with ⟨v, hv, hvi⟩ | ⟨-, -, r, hr, -, v, hv, hvstem, hvi⟩
  · have ht : t ∈ targets := hsplit ▸ List.mem_append_right _ List.mem_cons_self
    exact ⟨v, hv, h.path_equiv ht hu hv hs hvi ho (Path.equiv_symm hoi)⟩
  · -- An entry point that came from another target would have two stems.
    have hmem : r ∈ targets := hsplit ▸ List.mem_append_left _ hr
    have hpath := h.path_equiv hmem hu hv hs hvi ho (Path.equiv_symm hoi)
    exact absurd ((SourceFile.stem_eq_of_equiv hpath).trans hstem) hvstem

/-- **The inputs of every link edge**, in order and without repetitions; and the object of an
entry point is among them only if the target has that source itself. -/
theorem Plan.linkEdge_inputs (h : Plan.assemble targets mapper entryPoint = .ok p)
    {before after : List Target} {t : Target} (hsplit : targets = before ++ t :: after) :
    ∃ l, p.linkEdge t.spec.name = some l ∧ t.LinksInOrder mapper entryPoint before l.inputs ∧
      l.inputs.Pairwise (fun i j => ¬ i ≈ j) ∧
      ∀ u ∈ targets, ∀ s ∈ u.sources, s.stem = some entryPoint → ∀ o, mapper.HasObject s o →
        ∀ i ∈ l.inputs, o ≈ i → ∃ v ∈ t.sources, v.path ≈ s.path := by
  obtain ⟨a, hc, hfinish⟩ := Plan.assemble_covers h
  obtain ⟨-, first, -, rfl⟩ := Assembly.finish_cases hfinish
  obtain ⟨l, hl, hname, hlinks⟩ := hc.linked before t after hsplit
  have hself : t.spec.name ≈ l.output := by rw [hname]
  refine ⟨l, Plan.linkEdge_eq_some hc.outputs_distinct hl hself, hlinks.inOrder, ?_, ?_⟩
  · obtain ⟨own, reused, -, -, hinputs⟩ := hlinks
    rw [hinputs, distinctPaths_eq]
    exact firstSpellings_pairwise _
  · intro u hu s hs hstem o ho i hi hoi
    exact hc.mem_sources_of_entryPoint hsplit hlinks hu hs hstem ho hi hoi

/-- The harness that reuses the other one. -/
def allTests : Target :=
  ⟨⟨"tests/all", "tests", .secondary "tests//run"⟩, [⟨"/p/tests/main.cc"⟩]⟩

/-- The second harness links what the first one links, but not the program's entry point. -/
theorem linkEdge_inputs_harnessPlan :
    Plan.assemble harnessTargets harnessMapper "main" = .ok harnessPlan ∧
      harnessTargets = harnessTargets.take 2 ++ allTests :: [] ∧
      ∃ l, harnessPlan.linkEdge allTests.spec.name = some l ∧
        allTests.LinksInOrder harnessMapper "main" (harnessTargets.take 2) l.inputs ∧
        l.inputs.Pairwise (fun i j => ¬ i ≈ j) ∧
        ∀ u ∈ harnessTargets, ∀ s ∈ u.sources, s.stem = some "main" →
          ∀ o, harnessMapper.HasObject s o → ∀ i ∈ l.inputs, o ≈ i →
            ∃ v ∈ allTests.sources, v.path ≈ s.path :=
  ⟨assemble_harnessTargets, rfl, Plan.linkEdge_inputs assemble_harnessTargets rfl⟩

end NinjaPlan
