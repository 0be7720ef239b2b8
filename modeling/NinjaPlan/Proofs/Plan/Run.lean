import NinjaPlan.Proofs.Plan.Register

/-! # Runs over targets

A step of `Assembly.run` adds one target.  `Assembly.step_cases` takes a step that succeeds
apart, and `Assembly.step_complete` says when one succeeds.  What holds at the start and is kept
by every step holds after every run (`Assembly.run_induct`).

The invariant of a run is `Assembly.Covers`: everything that the assembly says about the targets
seen so far.  It holds after every run (`Assembly.covers_of_run`), and with `finish` it gives
all that is known of a plan (`Plan.assemble_covers`). -/

namespace NinjaPlan

/-! ### What a target links -/

/-- The objects that a target takes over, when the targets `before` come before it. -/
def Target.Reuses (mapper : ObjectMapper) (entryPoint : Text) (before : List Target) (t : Target)
    (reused : List Path) : Prop :=
  match t.spec.kind with
  | .primary => reused = []
  | .secondary name => ∃ r ∈ before, r.spec.name ≈ name ∧
      List.Forall₂ mapper.HasObject (r.sources.filter fun s => s.stem ≠ some entryPoint) reused

/-- The inputs are the target's own objects and those it takes over, without repetitions. -/
def Target.Links (mapper : ObjectMapper) (entryPoint : Text) (before : List Target) (t : Target)
    (inputs : List Path) : Prop :=
  ∃ own reused, List.Forall₂ mapper.HasObject t.sources own ∧
    t.Reuses mapper entryPoint before reused ∧ inputs = distinctPaths (own ++ reused)

section objects

variable {mapper : ObjectMapper} {entryPoint : Text} {sources : List SourceFile}
  {objects : List OwnedObject}

theorem hasObject_map_path (h : List.Forall₂ (OwnedObject.IsOf mapper entryPoint) sources objects) :
    List.Forall₂ mapper.HasObject sources (objects.map OwnedObject.path) :=
  List.forall₂_map_right_iff.mpr (h.imp fun _ _ ho => ho.1)

theorem hasObject_filter_map_path
    (h : List.Forall₂ (OwnedObject.IsOf mapper entryPoint) sources objects) :
    List.Forall₂ mapper.HasObject (sources.filter fun s => s.stem ≠ some entryPoint)
      ((objects.filter fun o => !o.isEntryPoint).map OwnedObject.path) := by
  have hleft : List.Forall₂ (OwnedObject.IsOf mapper entryPoint)
      (sources.filter fun s => s.stem ≠ some entryPoint)
      (objects.filter fun o => !o.isEntryPoint) := by
    refine List.rel_filter ?_ h
    intro s o ho
    simp [ho.2]
  exact hasObject_map_path hleft

end objects

namespace Assembly

section step

variable {mapper : ObjectMapper} {entryPoint : Text} {a b : Assembly} {t : Target}

/-! ### One target -/

theorem step_cases (h : a.step mapper entryPoint t = .ok b) :
    ∃ edges objects reused, a.objectsOf t.spec.name = none ∧
      registerSources mapper entryPoint a.compileEdges t.sources = .ok (edges, objects) ∧
      a.reusedObjects t.spec = .ok reused ∧
      b = { compileEdges := edges
            linkEdges := a.linkEdges ++
              [⟨t.spec.name, distinctPaths (objects.map OwnedObject.path ++ reused)⟩]
            owned := a.owned ++ [⟨t.spec.name, objects⟩] } := by
  unfold step at h
  cases hname : a.objectsOf t.spec.name with
  | some objects => simp [hname] at h
  | none =>
      cases hr : registerSources mapper entryPoint a.compileEdges t.sources with
      | error e => simp [hname, hr] at h
      | ok r =>
          obtain ⟨edges, objects⟩ := r
          cases hu : a.reusedObjects t.spec with
          | error e => simp [hname, hr, hu] at h
          | ok reused =>
              simp only [hname, hr, hu, Option.isSome_none, Bool.false_eq_true, if_false,
                Except.ok.injEq] at h
              exact ⟨edges, objects, reused, rfl, rfl, rfl, h.symm⟩

theorem step_complete (hname : a.objectsOf t.spec.name = none)
    (hr : ∃ r, registerSources mapper entryPoint a.compileEdges t.sources = .ok r)
    (hu : ∃ reused, a.reusedObjects t.spec = .ok reused) :
    ∃ b, a.step mapper entryPoint t = .ok b := by
  obtain ⟨⟨edges, objects⟩, hr⟩ := hr
  obtain ⟨reused, hu⟩ := hu
  unfold step
  simp only [hname, hr, hu, Option.isSome_none, Bool.false_eq_true, if_false]
  exact ⟨_, rfl⟩

end step

/-! ### Runs -/

section run

variable {mapper : ObjectMapper} {entryPoint : Text} {a b : Assembly}

theorem run_induct (P : List Target → Assembly → Prop)
    (hstep : ∀ done c t d, P done c → c.step mapper entryPoint t = .ok d → P (done ++ [t]) d)
    {done targets : List Target} (ha : P done a)
    (h : run mapper entryPoint a targets = (b, none)) : P (done ++ targets) b := by
  induction targets generalizing a done with
  | nil =>
      obtain ⟨rfl, -⟩ := Prod.mk.inj h
      simpa using ha
  | cons t targets ih =>
      unfold run at h
      cases hs : a.step mapper entryPoint t with
      | error e => simp [hs] at h
      | ok c =>
          simp only [hs] at h
          simpa using ih (hstep done a t c ha hs) h

/-- What an assembly says about the targets `done`. -/
structure Covers (a : Assembly) (mapper : ObjectMapper) (entryPoint : Text)
    (done : List Target) : Prop where
  /-- It remembers the objects of every target. -/
  owned : List.Forall₂ (fun t o => o.target = t.spec.name ∧
    List.Forall₂ (OwnedObject.IsOf mapper entryPoint) t.sources o.objects) done a.owned
  /-- No two targets have one name. -/
  names : done.Pairwise fun t u => ¬ t.spec.name ≈ u.spec.name
  /-- No object is made twice. -/
  distinct : ObjectsDistinct a.compileEdges
  /-- Every source is compiled. -/
  compiled : ∀ t ∈ done, ∀ m, t.Owns mapper m → ∃ e ∈ a.compileEdges, e.Compiles m
  /-- Every compile edge is that of a source. -/
  asked : ∀ e ∈ a.compileEdges, ∃ t ∈ done, t.Owns mapper ⟨e.source, e.object⟩
  /-- There is a link edge for each target, in order. -/
  outputs : a.linkEdges.map LinkEdge.output = done.map fun t => t.spec.name
  /-- Its inputs are what the target links. -/
  linked : ∀ before t after, done = before ++ t :: after →
    ∃ l ∈ a.linkEdges, l.output = t.spec.name ∧ t.Links mapper entryPoint before l.inputs

theorem covers_nil : Covers {} mapper entryPoint [] where
  owned := List.Forall₂.nil
  names := List.Pairwise.nil
  distinct := List.Pairwise.nil
  compiled := by simp
  asked := by simp
  outputs := rfl
  linked := by simp

namespace Covers

variable {done : List Target} {t : Target} {name : Path}

theorem objectsOf_eq_none_iff (h : a.Covers mapper entryPoint done) :
    a.objectsOf name = none ↔ ∀ t ∈ done, ¬ t.spec.name ≈ name := by
  unfold objectsOf
  rw [Option.map_eq_none_iff, List.find?_eq_none]
  simp only [decide_eq_true_eq]
  constructor
  · intro ho t ht
    obtain ⟨o, hmem, hname, -⟩ := forall₂_exists_right h.owned ht
    rw [← hname]
    exact ho o hmem
  · intro ht o hmem
    obtain ⟨t, hdone, hname, -⟩ := forall₂_exists_left h.owned hmem
    rw [hname]
    exact ht t hdone

theorem exists_of_objectsOf (h : a.Covers mapper entryPoint done) {objects : List OwnedObject}
    (ho : a.objectsOf name = some objects) :
    ∃ t ∈ done, t.spec.name ≈ name ∧
      List.Forall₂ (OwnedObject.IsOf mapper entryPoint) t.sources objects := by
  unfold objectsOf at ho
  obtain ⟨o, hf, rfl⟩ := Option.map_eq_some_iff.mp ho
  obtain ⟨t, ht, hname, hof⟩ := forall₂_exists_left h.owned (List.mem_of_find?_eq_some hf)
  have hn : o.target ≈ name := by simpa using List.find?_some hf
  exact ⟨t, ht, hname ▸ hn, hof⟩

/-- What a step takes over is what the target reuses of those before it. -/
theorem reuses (h : a.Covers mapper entryPoint done) {reused : List Path}
    (hu : a.reusedObjects t.spec = .ok reused) : t.Reuses mapper entryPoint done reused := by
  unfold reusedObjects at hu
  unfold Target.Reuses
  cases hk : t.spec.kind with
  | primary =>
      simp only [hk, Except.ok.injEq] at hu
      exact hu.symm
  | secondary name =>
      cases ho : a.objectsOf name with
      | none => simp [hk, ho] at hu
      | some objects =>
          simp only [hk, ho, Except.ok.injEq] at hu
          obtain ⟨r, hr, hname, hof⟩ := h.exists_of_objectsOf ho
          exact ⟨r, hr, hname, hu ▸ hasObject_filter_map_path hof⟩

theorem reusedObjects_complete (h : a.Covers mapper entryPoint done)
    (hr : ∀ name, t.spec.kind = .secondary name → ∃ r ∈ done, r.spec.name ≈ name) :
    ∃ reused, a.reusedObjects t.spec = .ok reused := by
  unfold reusedObjects
  cases hk : t.spec.kind with
  | primary => exact ⟨[], rfl⟩
  | secondary name =>
      cases ho : a.objectsOf name with
      | none =>
          obtain ⟨r, hmem, hname⟩ := hr name hk
          exact absurd hname (h.objectsOf_eq_none_iff.mp ho r hmem)
      | some objects =>
          simp only [ho]
          exact ⟨_, rfl⟩

/-- The invariant is kept by every step. -/
theorem step (h : a.Covers mapper entryPoint done) (hs : a.step mapper entryPoint t = .ok b) :
    b.Covers mapper entryPoint (done ++ [t]) := by
  obtain ⟨edges, objects, reused, hname, hr, hu, rfl⟩ := step_cases hs
  have hreg := registerSources_registered hr
  have hnew := h.objectsOf_eq_none_iff.mp hname
  refine ⟨?_, ?_, hreg.distinct h.distinct, ?_, ?_, ?_, ?_⟩
  · exact List.rel_append h.owned (List.Forall₂.cons ⟨rfl, hreg.objects_of⟩ List.Forall₂.nil)
  · refine List.pairwise_append.mpr ⟨h.names, List.pairwise_singleton _ _, ?_⟩
    intro u hmem v hv
    obtain rfl := List.mem_singleton.mp hv
    exact hnew u hmem
  · intro u hmem m hm
    rcases List.mem_append.mp hmem with hmem | hmem
    · obtain ⟨e, he, hc⟩ := h.compiled u hmem m hm
      exact ⟨e, hreg.grows.subset he, hc⟩
    · obtain rfl := List.mem_singleton.mp hmem
      obtain ⟨s, hs, hm⟩ := hm
      exact hreg.compiled s hs m hm
  · intro e he
    rcases hreg.asked e he with he | ⟨s, hs, hm⟩
    · obtain ⟨u, hu, hown⟩ := h.asked e he
      exact ⟨u, List.mem_append_left _ hu, hown⟩
    · exact ⟨t, by simp, s, hs, hm⟩
  · simp [h.outputs]
  · intro before u after hsplit
    rcases List.eq_nil_or_concat after with rfl | ⟨after, v, rfl⟩
    · obtain ⟨rfl, hlast⟩ := List.append_inj' hsplit rfl
      obtain rfl := List.singleton_inj.mp hlast
      exact ⟨⟨t.spec.name, _⟩, List.mem_append_right _ List.mem_cons_self, rfl, _, reused,
        hasObject_map_path hreg.objects_of, h.reuses hu, rfl⟩
    · have hsplit' : done ++ [t] = (before ++ u :: after) ++ [v] := by simpa using hsplit
      obtain ⟨l, hl, hlinks⟩ := h.linked before u after (List.append_inj' hsplit' rfl).1
      exact ⟨l, List.mem_append_left _ hl, hlinks⟩

end Covers

/-- The invariant holds after every run. -/
theorem covers_of_run {targets : List Target}
    (h : run mapper entryPoint {} targets = (a, none)) : a.Covers mapper entryPoint targets := by
  have hsteps := run_induct (fun done c => c.Covers mapper entryPoint done)
    (fun _ _ _ _ hc hs => hc.step hs)
    covers_nil h
  simpa using hsteps

end run

/-! ### Completing the plan -/

section finish

variable {a : Assembly} {targets : List Target} {p : Plan}

theorem finish_cases (h : a.finish targets = .ok p) :
    (∀ l ∈ a.linkEdges, ∀ e ∈ a.compileEdges, ¬ e.object ≈ l.output) ∧
      ∃ t, targets.find? (fun t => decide (t.spec.kind = .primary)) = some t ∧
        p = ⟨a.compileEdges, a.linkEdges, t.spec.name⟩ := by
  unfold finish at h
  cases hshadow : a.linkEdges.find? fun l => a.compileEdges.any fun c =>
      decide (c.object ≈ l.output) with
  | some l => simp [hshadow] at h
  | none =>
      cases hprimary : targets.find? fun t => decide (t.spec.kind = .primary) with
      | none => simp [hshadow, hprimary] at h
      | some t =>
          simp only [hshadow, hprimary, Except.ok.injEq] at h
          refine ⟨?_, t, rfl, h.symm⟩
          intro l hl e he
          have hl := List.find?_eq_none.mp hshadow l hl
          rw [List.any_eq_true] at hl
          exact fun ho => hl ⟨e, he, decide_eq_true ho⟩

theorem finish_of_apart
    (hshadow : ∀ l ∈ a.linkEdges, ∀ e ∈ a.compileEdges, ¬ e.object ≈ l.output) :
    a.finish targets =
      match targets.find? fun t => decide (t.spec.kind = .primary) with
      | none => .error .noPrimaryTarget
      | some t => .ok ⟨a.compileEdges, a.linkEdges, t.spec.name⟩ := by
  have hnone : (a.linkEdges.find? fun l => a.compileEdges.any fun c =>
      decide (c.object ≈ l.output)) = none := by
    rw [List.find?_eq_none]
    intro l hl hany
    obtain ⟨e, he, ho⟩ := List.any_eq_true.mp hany
    exact hshadow l hl e he (of_decide_eq_true ho)
  unfold finish
  rewrite [hnone]
  rfl

theorem finish_complete
    (hshadow : ∀ l ∈ a.linkEdges, ∀ e ∈ a.compileEdges, ¬ e.object ≈ l.output)
    (hprimary : ∃ t ∈ targets, t.spec.kind = .primary) : ∃ p, a.finish targets = .ok p := by
  rw [finish_of_apart hshadow]
  cases hf : targets.find? fun t => decide (t.spec.kind = .primary) with
  | none =>
      obtain ⟨t, ht, hk⟩ := hprimary
      exact absurd (decide_eq_true hk) (List.find?_eq_none.mp hf t ht)
  | some t => exact ⟨_, rfl⟩

end finish
end Assembly

theorem Plan.exists_run_of_assemble {targets : List Target} {mapper : ObjectMapper}
    {entryPoint : Text} {p : Plan} (h : Plan.assemble targets mapper entryPoint = .ok p) :
    ∃ a : Assembly, Assembly.run mapper entryPoint {} targets = (a, none) ∧
      a.finish targets = .ok p := by
  unfold Plan.assemble at h
  cases hrun : Assembly.run mapper entryPoint {} targets with
  | mk a e =>
      cases e with
      | some e => simp [hrun] at h
      | none =>
          simp only [hrun] at h
          exact ⟨a, rfl, h⟩

theorem Plan.assemble_covers {targets : List Target} {mapper : ObjectMapper} {entryPoint : Text}
    {p : Plan} (h : Plan.assemble targets mapper entryPoint = .ok p) :
    ∃ a : Assembly, a.Covers mapper entryPoint targets ∧ a.finish targets = .ok p := by
  obtain ⟨a, hrun, hfinish⟩ := Plan.exists_run_of_assemble h
  exact ⟨a, Assembly.covers_of_run hrun, hfinish⟩

end NinjaPlan
