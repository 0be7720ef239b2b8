import NinjaPlan.Proofs.Plan.SourceFault
import NinjaPlan.Proofs.Plan.Validity

/-! # The first fault of targets

Why targets make no plan, said of the targets and not of how they are assembled.  A target has a
`TargetFault` behind those before it if its name is taken, if one of its sources has a fault, or
if it reuses a target that is not among them, and it is asked in this order.  `FirstFault` is the
first of these faults; only targets without any, `SoundTargets`, are asked whether one of them is
an object, the first such one being at fault, and then whether one of them is primary.

`Plan.assemble_eq_error_iff` says that assembling fails exactly with the first fault.  Along a run
it is known of the assembly that it covers the targets so far and that its edges hold the source
that made each object first (`Assembly.Tracks`); this decides the next step
(`Assembly.Tracks.step_eq_error_iff`), is kept by it, and so decides the run. -/

namespace NinjaPlan

/-- The sources of targets, in the order in which they are registered. -/
def allSources (targets : List Target) : List SourceFile :=
  targets.flatMap Target.sources

def IsObject (mapper : ObjectMapper) (sources : List SourceFile) (path : Path) : Prop :=
  ∃ s ∈ sources, ∃ m, mapper.map s = .ok m ∧ m.object ≈ path

/-- Targets in each of which there is nothing wrong. -/
structure SoundTargets (mapper : ObjectMapper) (targets : List Target) : Prop where
  /-- No two targets have the same path. -/
  names : targets.Pairwise fun t u => ¬ t.spec.name ≈ u.spec.name
  /-- There is nothing wrong in their sources. -/
  sources : SoundSources mapper (allSources targets)
  /-- A target reuses one before it. -/
  reused : ∀ before t after, targets = before ++ t :: after → ∀ name,
    t.spec.kind = .secondary name → ∃ u ∈ before, u.spec.name ≈ name

/-- What is wrong with a target behind others, if it is asked for its name, then for its sources
and then for the target it reuses. -/
inductive TargetFault (mapper : ObjectMapper) (before : List Target) (t : Target) :
    PlanError → Prop where
  /-- The target is declared again. -/
  | repeated {u : Target} : u ∈ before → u.spec.name ≈ t.spec.name →
      TargetFault mapper before t (.duplicateTarget t.spec.name)
  /-- One of its sources has a fault. -/
  | source {e : PlanError} : (∀ u ∈ before, ¬ u.spec.name ≈ t.spec.name) →
      FirstSourceFault mapper (allSources before) t.sources e → TargetFault mapper before t e
  /-- It reuses what no target before it is; it does not come before itself. -/
  | unknown {name : Path} : (∀ u ∈ before, ¬ u.spec.name ≈ t.spec.name) →
      SoundSources mapper (allSources before ++ t.sources) → t.spec.kind = .secondary name →
      (∀ u ∈ before, ¬ u.spec.name ≈ name) →
      TargetFault mapper before t (.unknownTarget t.spec.name name)

/-- The first thing that is wrong with targets. -/
inductive FirstFault (mapper : ObjectMapper) (targets : List Target) : PlanError → Prop where
  /-- A target has a fault and none before it has. -/
  | target {before after : List Target} {t : Target} {e : PlanError} :
      targets = before ++ t :: after → SoundTargets mapper before →
      TargetFault mapper before t e → FirstFault mapper targets e
  /-- A target is an object and none before it is. -/
  | shadow {before after : List Target} {t : Target} : targets = before ++ t :: after →
      SoundTargets mapper targets → IsObject mapper (allSources targets) t.spec.name →
      (∀ u ∈ before, ¬ IsObject mapper (allSources targets) u.spec.name) →
      FirstFault mapper targets (.targetShadowsObject t.spec.name)
  /-- There is nothing to build by default. -/
  | aimless : SoundTargets mapper targets →
      (∀ t ∈ targets, ¬ IsObject mapper (allSources targets) t.spec.name) →
      (∀ t ∈ targets, t.spec.kind ≠ .primary) → FirstFault mapper targets .noPrimaryTarget

section

variable {mapper : ObjectMapper} {entryPoint : Text} {a b : Assembly}
  {done targets : List Target} {t : Target} {e : PlanError}

theorem allSources_append (targets more : List Target) :
    allSources (targets ++ more) = allSources targets ++ allSources more :=
  List.flatMap_append

theorem allSources_cons (t : Target) (targets : List Target) :
    allSources (t :: targets) = t.sources ++ allSources targets := rfl

theorem SoundTargets.not_fault {more : List Target} (h : SoundTargets mapper (done ++ t :: more)) :
    ¬ TargetFault mapper done t e := by
  rintro (⟨hu, hname⟩ | ⟨-, before, s, after, hsplit, -, hs⟩ | ⟨-, -, hk, hnone⟩)
  · exact (List.pairwise_append.mp h.names).2.2 _ hu t List.mem_cons_self hname
  · have hsources := h.sources
    rw [allSources_append, allSources_cons, hsplit, List.append_assoc, ← List.append_assoc,
      List.cons_append] at hsources
    exact hsources.not_fault hs
  · obtain ⟨u, hu, hname⟩ := h.reused done t more rfl _ hk
    exact hnone u hu hname

theorem Registers.any_object_iff {sources : List SourceFile} {edges : List CompileEdge}
    (h : Registers mapper sources edges) (path : Path) :
    (edges.any fun c => decide (c.object ≈ path)) = true ↔ IsObject mapper sources path := by
  rw [← List.isSome_find?, h path, Option.isSome_map, ← Option.ne_none_iff_isSome, ne_eq,
    firstMade_eq_none_iff]
  push Not
  rfl

namespace Assembly

/-! ### A step that fails -/

/-- The three ways in which a step fails, in the order in which they are checked. -/
theorem step_fails_iff : a.step mapper entryPoint t = .error e ↔
    (a.objectsOf t.spec.name ≠ none ∧ e = .duplicateTarget t.spec.name) ∨
      (a.objectsOf t.spec.name = none ∧
        registerSources mapper entryPoint a.compileEdges t.sources = .error e) ∨
      (a.objectsOf t.spec.name = none ∧
        (∃ r, registerSources mapper entryPoint a.compileEdges t.sources = .ok r) ∧
        a.reusedObjects t.spec = .error e) := by
  unfold step
  cases a.objectsOf t.spec.name with
  | some objects => simp [eq_comm]
  | none =>
      cases registerSources mapper entryPoint a.compileEdges t.sources with
      | error e' => simp
      | ok r => cases a.reusedObjects t.spec <;> simp

/-- The output of the first link edge that is an object. -/
def shadowing (a : Assembly) : Option Path :=
  (a.linkEdges.find? fun l => a.compileEdges.any fun c => decide (c.object ≈ l.output)).map
    LinkEdge.output

/-- The two ways in which a plan is not completed, in the order in which they are checked. -/
theorem finish_fails_iff : a.finish targets = .error e ↔
    (∃ path, a.shadowing = some path ∧ e = .targetShadowsObject path) ∨
      (a.shadowing = none ∧ (∀ t ∈ targets, t.spec.kind ≠ .primary) ∧ e = .noPrimaryTarget) := by
  have hprimary : (targets.find? fun t => decide (t.spec.kind = .primary)) = none ↔
      ∀ t ∈ targets, t.spec.kind ≠ .primary := by simp [List.find?_eq_none]
  rw [← hprimary]
  unfold finish shadowing
  cases a.linkEdges.find? fun l => a.compileEdges.any fun c => decide (c.object ≈ l.output) with
  | some l => simp [eq_comm]
  | none => cases targets.find? fun t => decide (t.spec.kind = .primary) <;> simp [eq_comm]

/-! ### What decides the next step -/

/-- What an assembly says about the targets `done`, and where its edges come from. -/
structure Tracks (a : Assembly) (mapper : ObjectMapper) (entryPoint : Text)
    (done : List Target) : Prop where
  covers : a.Covers mapper entryPoint done
  registers : Registers mapper (allSources done) a.compileEdges
  sources : SoundSources mapper (allSources done)

theorem tracks_nil : Tracks {} mapper entryPoint [] :=
  ⟨covers_nil, registers_nil, SoundSources.nil⟩

/-- What a target reuses is missing exactly if no target has the name. -/
theorem Covers.reusedObjects_eq_error_iff (h : a.Covers mapper entryPoint done) :
    a.reusedObjects t.spec = .error e ↔ ∃ name, t.spec.kind = .secondary name ∧
      (∀ u ∈ done, ¬ u.spec.name ≈ name) ∧ e = .unknownTarget t.spec.name name := by
  unfold reusedObjects
  cases t.spec.kind with
  | primary => simp
  | secondary name =>
      simp only [TargetKind.secondary.injEq, exists_eq_left', ← h.objectsOf_eq_none_iff]
      cases a.objectsOf name <;> simp [eq_comm]

namespace Tracks

theorem soundTargets (h : a.Tracks mapper entryPoint done) : SoundTargets mapper done where
  names := h.covers.names
  sources := h.sources
  reused _ _ _ hsplit _ hk := h.covers.exists_reused hsplit hk

/-- The invariant is kept by every step. -/
theorem step (h : a.Tracks mapper entryPoint done) (hs : a.step mapper entryPoint t = .ok b) :
    b.Tracks mapper entryPoint (done ++ [t]) := by
  obtain ⟨edges, objects, reused, -, hr, -, hb⟩ := step_cases hs
  have hsound := registerSources_sound h.registers h.sources hr
  have hall : allSources (done ++ [t]) = allSources done ++ t.sources := by
    rw [allSources_append, allSources_cons]
    exact congrArg _ (List.append_nil _)
  refine ⟨h.covers.step hs, ?_, ?_⟩
  · rw [hall, hb]
    exact hsound.2
  · rw [hall]
    exact hsound.1

/-- A step fails exactly with the fault of its target. -/
theorem step_eq_error_iff (h : a.Tracks mapper entryPoint done) :
    a.step mapper entryPoint t = .error e ↔ TargetFault mapper done t e := by
  rw [step_fails_iff, ne_eq, h.covers.objectsOf_eq_none_iff,
    registerSources_eq_error_iff h.registers h.sources,
    exists_registerSources_iff h.registers h.sources, h.covers.reusedObjects_eq_error_iff]
  constructor
  · rintro (⟨hname, rfl⟩ | ⟨hnew, hs⟩ | ⟨hnew, hs, name, hk, hnone, rfl⟩)
    · push Not at hname
      obtain ⟨u, hu, hname⟩ := hname
      exact .repeated hu hname
    · exact .source hnew hs
    · exact .unknown hnew hs hk hnone
  · rintro (⟨hu, hname⟩ | ⟨hnew, hs⟩ | ⟨hnew, hs, hk, hnone⟩)
    · exact Or.inl ⟨fun hnew => hnew _ hu hname, rfl⟩
    · exact Or.inr (Or.inl ⟨hnew, hs⟩)
    · exact Or.inr (Or.inr ⟨hnew, hs, _, hk, hnone, rfl⟩)

/-- A run fails exactly with the fault of the first target that has one. -/
theorem run_eq_error_iff (h : a.Tracks mapper entryPoint done) :
    (run mapper entryPoint a targets).2 = some e ↔ ∃ before t after,
      targets = before ++ t :: after ∧ SoundTargets mapper (done ++ before) ∧
        TargetFault mapper (done ++ before) t e := by
  induction targets generalizing a done with
  | nil => simp [run]
  | cons t rest ih =>
      rw [exists_split_cons_iff, List.append_nil, run]
      cases hs : a.step mapper entryPoint t with
      | ok b =>
          have hnot : ¬ TargetFault mapper done t e := by
            rw [← h.step_eq_error_iff, hs]
            rintro ⟨⟩
          simpa [hnot] using ih (h.step hs)
      | error e' =>
          have hfault := h.step_eq_error_iff.mp hs
          constructor
          · rintro ⟨⟩
            exact Or.inl ⟨h.soundTargets, hfault⟩
          · rintro (⟨-, hs'⟩ | ⟨before, u, after, -, hbefore, -⟩)
            · rw [← h.step_eq_error_iff, hs] at hs'
              exact congrArg some (Except.error.inj hs')
            · exact absurd hfault hbefore.not_fault

theorem shadowing_eq (h : a.Tracks mapper entryPoint targets) : a.shadowing =
    (targets.find? fun t => a.compileEdges.any fun c => decide (c.object ≈ t.spec.name)).map
      fun t => t.spec.name := by
  have houtputs := congrArg
    (List.find? fun path => a.compileEdges.any fun c => decide (c.object ≈ path)) h.covers.outputs
  rwa [List.find?_map, List.find?_map] at houtputs

theorem shadowing_eq_none_iff (h : a.Tracks mapper entryPoint targets) :
    a.shadowing = none ↔ ∀ t ∈ targets, ¬ IsObject mapper (allSources targets) t.spec.name := by
  simp only [h.shadowing_eq, Option.map_eq_none_iff, List.find?_eq_none,
    h.registers.any_object_iff]

theorem shadowing_eq_some_iff (h : a.Tracks mapper entryPoint targets) {path : Path} :
    a.shadowing = some path ↔ ∃ before t after, targets = before ++ t :: after ∧
      IsObject mapper (allSources targets) t.spec.name ∧
      (∀ u ∈ before, ¬ IsObject mapper (allSources targets) u.spec.name) ∧
      t.spec.name = path := by
  simp only [h.shadowing_eq, Option.map_eq_some_iff, List.find?_eq_some_iff_append,
    ← h.registers.any_object_iff]
  constructor
  · rintro ⟨t, ⟨ht, before, after, hsplit, hbefore⟩, hname⟩
    exact ⟨before, t, after, hsplit, ht, by simpa using hbefore, hname⟩
  · rintro ⟨before, t, after, hsplit, ht, hbefore, hname⟩
    exact ⟨t, ⟨ht, before, after, hsplit, by simpa using hbefore⟩, hname⟩

theorem finish_eq_error_iff (h : a.Tracks mapper entryPoint targets) :
    a.finish targets = .error e ↔ FirstFault mapper targets e := by
  rw [finish_fails_iff, h.shadowing_eq_none_iff]
  simp only [h.shadowing_eq_some_iff]
  constructor
  · rintro (⟨_, ⟨before, t, after, hsplit, ht, hbefore, rfl⟩, rfl⟩ | ⟨hnone, hprimary, rfl⟩)
    · exact .shadow hsplit h.soundTargets ht hbefore
    · exact .aimless h.soundTargets hnone hprimary
  · rintro (⟨hsplit, -, ht⟩ | ⟨hsplit, -, ht, hbefore⟩ | ⟨-, hnone, hprimary⟩)
    · exact absurd ht (hsplit ▸ h.soundTargets).not_fault
    · exact Or.inl ⟨_, ⟨_, _, _, hsplit, ht, hbefore, rfl⟩, rfl⟩
    · exact Or.inr ⟨hnone, hprimary, rfl⟩

end Tracks

theorem tracks_of_run (h : run mapper entryPoint {} targets = (a, none)) :
    a.Tracks mapper entryPoint targets := by
  have hsteps := run_induct (fun done c => c.Tracks mapper entryPoint done)
    (fun _ _ _ _ hc hs => hc.step hs) tracks_nil h
  simpa using hsteps

end Assembly

theorem Plan.firstFault_of_error (h : Plan.assemble targets mapper entryPoint = .error e) :
    FirstFault mapper targets e := by
  unfold Plan.assemble at h
  cases hrun : Assembly.run mapper entryPoint {} targets with
  | mk a failed =>
      rw [hrun] at h
      cases failed with
      | some e' =>
          obtain rfl := Except.error.inj h
          obtain ⟨before, t, after, hsplit, hbefore, ht⟩ :=
            Assembly.tracks_nil.run_eq_error_iff.mp (congrArg Prod.snd hrun)
          exact .target hsplit hbefore ht
      | none => exact (Assembly.tracks_of_run hrun).finish_eq_error_iff.mp h

end

/-- **Assembling fails exactly with the first fault of the targets.** -/
theorem Plan.assemble_eq_error_iff (targets : List Target) (mapper : ObjectMapper)
    (entryPoint : Text) (e : PlanError) :
    Plan.assemble targets mapper entryPoint = .error e ↔ FirstFault mapper targets e := by
  have hstart : Assembly.Tracks {} mapper entryPoint [] := Assembly.tracks_nil
  have hfault : ∀ e, (Assembly.run mapper entryPoint {} targets).2 = some e ↔ ∃ before t after,
      targets = before ++ t :: after ∧ SoundTargets mapper before ∧ TargetFault mapper before t e :=
    fun _ => hstart.run_eq_error_iff
  unfold Plan.assemble
  cases hrun : Assembly.run mapper entryPoint {} targets with
  | mk a failed =>
      rw [hrun] at hfault
      cases failed with
      | some e' =>
          -- A target has a fault, so the targets are not sound and no later check counts.
          obtain ⟨before, t, after, hsplit, hbefore, ht⟩ := (hfault e').mp rfl
          have hunsound : ¬ SoundTargets mapper targets := fun h => (hsplit ▸ h).not_fault ht
          constructor
          · rintro ⟨⟩
            exact .target hsplit hbefore ht
          · rintro (⟨hsplit, hbefore, ht⟩ | ⟨-, h, -, -⟩ | ⟨h, -, -⟩)
            · have he := (hfault e).mpr ⟨_, _, _, hsplit, hbefore, ht⟩
              exact congrArg Except.error (Option.some.inj he)
            · exact absurd h hunsound
            · exact absurd h hunsound
      | none => exact (Assembly.tracks_of_run hrun).finish_eq_error_iff

/-- A target that reuses itself reuses an unknown one, and that comes before the lack of a
primary target. -/
example (mapper : ObjectMapper) :
    Plan.assemble [⟨⟨⟨"app"⟩, ⟨"src"⟩, .secondary ⟨"app"⟩⟩, []⟩] mapper "main" =
      .error (.unknownTarget ⟨"app"⟩ ⟨"app"⟩) := by rfl

end NinjaPlan
