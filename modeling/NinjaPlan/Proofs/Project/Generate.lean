import Mathlib.Data.List.Forall2
import NinjaPlan.Proofs.BuildFile.Paths
import NinjaPlan.Proofs.Flags.Lookups
import NinjaPlan.Project.Generate

/-! # What a text is made of

The text of a build file comes from flags, from a target for each specification with the sources
that are found for it, and from the plan of these targets; `generate_eq_ok_iff` and
`describe_eq_ok_iff` take it apart and put it together again.  With answers that are given
beforehand only the search for sources depends on the files. -/

namespace NinjaPlan

/-- A computation that gives a result gives one for its first step. -/
theorem Logged.bind_ok_iff {ε α β : Type} {x : Logged ε α} {f : α → Logged ε β} {b : β} :
    (x >>= f).result = .ok b ↔ ∃ a, x.result = .ok a ∧ (f a).result = .ok b := by
  rw [result_bind]
  exact BuildFile.bind_eq_ok_iff

/-- A computation fails in its first step or behind it. -/
theorem Logged.bind_error_iff {ε α β : Type} {x : Logged ε α} {f : α → Logged ε β} {e : ε} :
    (x >>= f).result = .error e ↔
      x.result = .error e ∨ ∃ a, x.result = .ok a ∧ (f a).result = .error e := by
  rw [result_bind]
  cases x.result <;> simp [Except.bind]

namespace Layout

variable {l : Layout} {t : FileTree} {here : Location} {text : Text}

/-- The target is what a search for its sources makes of its specification. -/
def Finds (l : Layout) (t : FileTree) (here : Location) (spec : TargetSpec) (target : Target) :
    Prop :=
  target.spec = spec ∧
    (discover t here l.root spec.subdir l.extensions).result = .ok target.sources

theorem forall₂_targets_iff {R : TargetSpec → Target → Prop} {found : List Target} :
    List.Forall₂ R l.targets found ↔ ∃ program tests, R ⟨l.name, l.sourceDir, .primary⟩ program ∧
      R ⟨l.testName, l.testDir, .secondary l.name⟩ tests ∧ found = [program, tests] := by
  unfold targets
  constructor
  · intro h
    obtain ⟨program, rest, hprogram, hrest, rfl⟩ := List.forall₂_cons_left_iff.mp h
    obtain ⟨tests, rest, htests, hnil, rfl⟩ := List.forall₂_cons_left_iff.mp hrest
    obtain rfl := List.forall₂_nil_left_iff.mp hnil
    exact ⟨program, tests, hprogram, htests, rfl⟩
  · rintro ⟨program, tests, hprogram, htests, rfl⟩
    exact .cons hprogram (.cons htests .nil)

theorem findSources_eq_ok_iff {spec : TargetSpec} {target : Target} :
    (l.findSources t here spec).result = .ok target ↔ l.Finds t here spec target := by
  obtain ⟨spec', sources⟩ := target
  unfold findSources Finds
  dsimp only
  cases (discover t here l.root spec.subdir l.extensions).result with
  | error e => simp [Except.mapError, Except.map]
  | ok found => simp [Except.mapError, Except.map, eq_comm]

theorem findAll_eq_ok_iff {specs : List TargetSpec} {targets : List Target} :
    (l.findAll t here specs).result = .ok targets ↔
      List.Forall₂ (l.Finds t here) specs targets := by
  induction specs generalizing targets with
  | nil =>
      rw [List.forall₂_nil_left_iff]
      exact ⟨fun h => (Except.ok.inj h).symm, fun h => congrArg Except.ok h.symm⟩
  | cons spec specs ih =>
      rw [List.forall₂_cons_left_iff]
      unfold findAll
      constructor
      · intro h
        obtain ⟨target, htarget, h⟩ := Logged.bind_ok_iff.mp h
        obtain ⟨rest, hrest, h⟩ := Logged.bind_ok_iff.mp h
        exact ⟨target, rest, findSources_eq_ok_iff.mp htarget, ih.mp hrest,
          (Except.ok.inj h).symm⟩
      · rintro ⟨target, rest, htarget, hrest, rfl⟩
        exact Logged.bind_ok_iff.mpr ⟨target, findSources_eq_ok_iff.mpr htarget,
          Logged.bind_ok_iff.mpr ⟨rest, ih.mpr hrest, rfl⟩⟩

theorem planTargets_eq_ok_iff {targets : List Target} {p : Plan} :
    (l.planTargets targets).result = .ok p ↔
      Plan.assemble targets l.objectMapper l.entryPoint = .ok p := by
  unfold planTargets
  cases Plan.assemble targets l.objectMapper l.entryPoint <;> simp

theorem describe_eq_ok_iff {c : FlagConfig} : (l.describe t here c).result = .ok text ↔
    ∃ targets, List.Forall₂ (l.Finds t here) l.targets targets ∧ ∃ p,
      Plan.assemble targets l.objectMapper l.entryPoint = .ok p ∧
        BuildFile.render p c = .ok text := by
  unfold describe
  rw [Logged.bind_ok_iff]
  refine exists_congr fun targets => and_congr findAll_eq_ok_iff ?_
  rw [Logged.bind_ok_iff]
  refine exists_congr fun p => and_congr planTargets_eq_ok_iff ?_
  cases BuildFile.render p c <;> simp [Logged.ofExcept]

/-- A search for sources fails for a listing. -/
theorem findAll_ne_plan (specs : List TargetSpec) (e : PlanError) :
    (l.findAll t here specs).result ≠ .error (.plan e) := by
  induction specs with
  | nil => exact nofun
  | cons spec specs ih =>
      intro h
      unfold findAll at h
      rcases Logged.bind_error_iff.mp h with hfirst | ⟨target, -, h⟩
      · unfold findSources at hfirst
        dsimp only at hfirst
        cases hfound : (discover t here l.root spec.subdir l.extensions).result <;>
          simp [hfound, Except.mapError, Except.map] at hfirst
      · rcases Logged.bind_error_iff.mp h with hrest | ⟨targets, -, hend⟩
        · exact ih hrest
        · cases hend

theorem planTargets_eq_plan_error_iff {targets : List Target} {e : PlanError} :
    (l.planTargets targets).result = .error (.plan e) ↔
      Plan.assemble targets l.objectMapper l.entryPoint = .error e := by
  unfold planTargets
  cases Plan.assemble targets l.objectMapper l.entryPoint <;> simp

theorem describe_eq_plan_error_iff {c : FlagConfig} {e : PlanError} :
    (l.describe t here c).result = .error (.plan e) ↔
      ∃ targets, List.Forall₂ (l.Finds t here) l.targets targets ∧
        Plan.assemble targets l.objectMapper l.entryPoint = .error e := by
  unfold describe
  rw [Logged.bind_error_iff, or_iff_right (findAll_ne_plan _ _)]
  refine exists_congr fun targets => and_congr findAll_eq_ok_iff ?_
  rw [Logged.bind_error_iff, ← planTargets_eq_plan_error_iff]
  constructor
  · rintro (hplan | ⟨p, -, hrender⟩)
    · exact hplan
    · cases hfound : BuildFile.render p c <;> simp [hfound, Logged.ofExcept] at hrender
  · exact Or.inl

section generated

variable {o : Options} {source : PackageSource} {out : Logged RunError Text} {u : FileTree}

/-- A text is generated from the files that the package lookups leave. -/
theorem exists_describe_of_text (h : l.generate o source t here = (out, u))
    (htext : out.result = .ok text) : ∃ c, (l.describe u here c).result = .ok text := by
  obtain ⟨rfl, rfl⟩ := Prod.mk.inj h
  obtain ⟨c, -, hdescribe⟩ := Logged.bind_ok_iff.mp htext
  exact ⟨c, hdescribe⟩

/-- Flags are not what a plan is missing for. -/
theorem exists_describe_of_plan_error (h : l.generate o source t here = (out, u)) {e : PlanError}
    (he : out.result = .error (.plan e)) :
    ∃ c, (l.describe u here c).result = .error (.plan e) := by
  obtain ⟨rfl, rfl⟩ := Prod.mk.inj h
  rcases Logged.bind_error_iff.mp he with hflags | ⟨c, -, hdescribe⟩
  · cases hfound : ((o.flagRequest l).resolve source t).result <;> simp [hfound] at hflags
  · exact ⟨c, hdescribe⟩

end generated

/-- Answers that are given beforehand leave the files as they are for the search. -/
theorem generate_eq_ok_iff {o : Options} {answers : PackageAnswers} :
    (l.generate o answers.source t here).1.result = .ok text ↔
      ∃ c, ((o.flagRequest l).resolve answers.source t).result = .ok c ∧
        (l.describe t here c).result = .ok text := by
  have htree : ((o.flagRequest l).resolve answers.source t).tree = t :=
    ((o.flagRequest l).leads_resolve answers.source t).eq_of_keepsFiles
      (PackageSource.keepsFiles_of_answers answers)
  have hgenerate : (l.generate o answers.source t here).1 = (l.findFlags o answers.source t).1 >>=
      l.describe ((o.flagRequest l).resolve answers.source t).tree here := rfl
  have hflags : ∀ c, ((l.findFlags o answers.source t).1).result = .ok c ↔
      ((o.flagRequest l).resolve answers.source t).result = .ok c := by
    intro c
    unfold findFlags
    dsimp only
    cases ((o.flagRequest l).resolve answers.source t).result <;> simp
  rw [hgenerate, htree, Logged.bind_ok_iff]
  exact exists_congr fun c => and_congr_left' (hflags c)

end Layout
end NinjaPlan
