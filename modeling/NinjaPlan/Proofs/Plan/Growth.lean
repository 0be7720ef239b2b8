import NinjaPlan.Proofs.Plan.Edges

/-! # More targets

A step adds to an assembly and changes nothing that is there (`Assembly.Grows`), and a run over more
targets goes on where the run over the first ones has ended (`Assembly.run_append`).

So a plan of some targets begins the plan of those and more (`Plan.Begins`).  An error that a target
has by itself or with earlier ones stays, whatever comes behind.  The two errors that are looked for
last (`PlanError.isLate`) depend on all targets: a target that is an object stays one, but a primary
target may still come.  `Plan.assemble_append` puts this together. -/

namespace NinjaPlan

/-- Whether the error is looked for when all targets have been added. -/
def PlanError.isLate : PlanError → Bool
  | targetShadowsObject _ | noPrimaryTarget => true
  | _ => false

/-- The plan has the edges of the other one first and builds the same target by default. -/
structure Plan.Begins (p q : Plan) : Prop where
  compileEdges : p.compileEdges <+: q.compileEdges
  linkEdges : p.linkEdges <+: q.linkEdges
  defaultTarget : p.defaultTarget = q.defaultTarget

namespace Assembly

/-- The assembly is there unchanged in front of what has been added. -/
structure Grows (a b : Assembly) : Prop where
  compileEdges : a.compileEdges <+: b.compileEdges
  linkEdges : a.linkEdges <+: b.linkEdges
  owned : a.owned <+: b.owned

variable {mapper : ObjectMapper} {entryPoint : Text} {a b c : Assembly} {targets : List Target}

theorem grows_refl (a : Assembly) : a.Grows a :=
  ⟨List.prefix_rfl, List.prefix_rfl, List.prefix_rfl⟩

theorem Grows.trans (h : a.Grows b) (h' : b.Grows c) : a.Grows c :=
  ⟨h.compileEdges.trans h'.compileEdges, h.linkEdges.trans h'.linkEdges, h.owned.trans h'.owned⟩

theorem grows_of_step {t : Target} (h : a.step mapper entryPoint t = .ok b) : a.Grows b := by
  obtain ⟨edges, objects, reused, -, hr, -, rfl⟩ := step_cases h
  exact ⟨(registerSources_registered hr).grows, List.prefix_append _ _, List.prefix_append _ _⟩

theorem grows_of_run (h : run mapper entryPoint a targets = (b, none)) : a.Grows b := by
  induction targets generalizing a with
  | nil =>
      obtain rfl : a = b := congrArg Prod.fst h
      exact grows_refl a
  | cons t targets ih =>
      rw [run] at h
      cases hs : a.step mapper entryPoint t with
      | error e => simp [hs] at h
      | ok c =>
          simp only [hs] at h
          exact (grows_of_step hs).trans (ih h)

/-- A run over more targets stops where the first ones do, or goes on from what they leave. -/
theorem run_append (a : Assembly) (ts us : List Target) :
    run mapper entryPoint a (ts ++ us) =
      match run mapper entryPoint a ts with
      | (b, some e) => (b, some e)
      | (b, none) => run mapper entryPoint b us := by
  induction ts generalizing a with
  | nil => rfl
  | cons t ts ih =>
      rw [List.cons_append, run, run]
      cases a.step mapper entryPoint t with
      | error e => rfl
      | ok b => exact ih b

theorem isLate_of_finish {e : PlanError} (h : a.finish targets = .error e) : e.isLate = true := by
  unfold finish at h
  split at h
  · obtain rfl := Except.error.inj h
    rfl
  · split at h
    · obtain rfl := Except.error.inj h
      rfl
    · cases h

/-- What can be completed with more edges can be completed before, if there is a primary target. -/
theorem Grows.finish_cases {p : Plan} {more : List Target} (h : a.Grows b)
    (hp : b.finish more = .ok p) (targets : List Target) :
    (∃ q, a.finish targets = .ok q) ∨ a.finish targets = .error .noPrimaryTarget := by
  obtain ⟨hshadow, -⟩ := Assembly.finish_cases hp
  have hapart : ∀ l ∈ a.linkEdges, ∀ e ∈ a.compileEdges, ¬ e.object ≈ l.output :=
    fun l hl e he => hshadow l (h.linkEdges.subset hl) e (h.compileEdges.subset he)
  rw [finish_of_apart hapart]
  cases targets.find? fun t => decide (t.spec.kind = .primary) with
  | none => exact Or.inr rfl
  | some t => exact Or.inl ⟨_, rfl⟩

end Assembly

namespace Plan

variable {mapper : ObjectMapper} {entryPoint : Text} {ts us : List Target} {p q : Plan}

/-- A run over more targets comes from one over the first of them. -/
theorem exists_run_of_append {c : Assembly}
    (h : Assembly.run mapper entryPoint {} (ts ++ us) = (c, none)) :
    ∃ a, Assembly.run mapper entryPoint {} ts = (a, none) ∧ a.Grows c := by
  rw [Assembly.run_append] at h
  cases hrun : Assembly.run mapper entryPoint {} ts with
  | mk a failure =>
      cases failure with
      | some e => simp [hrun] at h
      | none => exact ⟨a, rfl, Assembly.grows_of_run (by simpa [hrun] using h)⟩

theorem begins_of_append (hp : assemble ts mapper entryPoint = .ok p)
    (hq : assemble (ts ++ us) mapper entryPoint = .ok q) : p.Begins q := by
  obtain ⟨a, hrun, hfinish⟩ := exists_run_of_assemble hp
  obtain ⟨c, hall, hfinishAll⟩ := exists_run_of_assemble hq
  obtain ⟨b, hfirst, hgrows⟩ := exists_run_of_append hall
  obtain rfl : a = b := congrArg Prod.fst (hrun.symm.trans hfirst)
  obtain ⟨-, t, ht, rfl⟩ := Assembly.finish_cases hfinish
  obtain ⟨-, u, hu, rfl⟩ := Assembly.finish_cases hfinishAll
  -- The first primary target of the first targets is the first of all.
  have hsame : t = u := by
    rw [List.find?_append, ht] at hu
    exact Option.some.inj hu
  exact ⟨hgrows.compileEdges, hgrows.linkEdges, by rw [hsame]⟩

theorem assemble_append_error {e : PlanError} (h : assemble ts mapper entryPoint = .error e)
    (he : e.isLate = false) : assemble (ts ++ us) mapper entryPoint = .error e := by
  unfold assemble at h ⊢
  rw [Assembly.run_append]
  cases hrun : Assembly.run mapper entryPoint {} ts with
  | mk a failure =>
      cases failure with
      | some e' => simpa [hrun] using h
      | none =>
          have hlate := Assembly.isLate_of_finish (by simpa [hrun] using h)
          rw [he] at hlate
          cases hlate

theorem assemble_of_append (h : assemble (ts ++ us) mapper entryPoint = .ok q) :
    (∃ p, assemble ts mapper entryPoint = .ok p) ∨
      assemble ts mapper entryPoint = .error .noPrimaryTarget := by
  obtain ⟨c, hall, hfinish⟩ := exists_run_of_assemble h
  obtain ⟨a, hrun, hgrows⟩ := exists_run_of_append hall
  have hassemble : assemble ts mapper entryPoint = a.finish ts := by
    unfold assemble
    rw [hrun]
  rw [hassemble]
  exact hgrows.finish_cases hfinish ts

/-- **More targets, more plan.**  With targets put behind others, a plan of the first ones begins
the plan of all; an error of the first ones stays, if it is not a late one; and if there is a plan
of all, the first ones have a plan or lack nothing but a primary target. -/
theorem assemble_append (ts us : List Target) (mapper : ObjectMapper) (entryPoint : Text) :
    (∀ p q, assemble ts mapper entryPoint = .ok p →
      assemble (ts ++ us) mapper entryPoint = .ok q → p.Begins q) ∧
    (∀ e, assemble ts mapper entryPoint = .error e → e.isLate = false →
      assemble (ts ++ us) mapper entryPoint = .error e) ∧
    ∀ q, assemble (ts ++ us) mapper entryPoint = .ok q →
      (∃ p, assemble ts mapper entryPoint = .ok p) ∨
        assemble ts mapper entryPoint = .error .noPrimaryTarget :=
  ⟨fun _ _ => begins_of_append, fun _ => assemble_append_error, fun _ => assemble_of_append⟩

end Plan

/-- The program of the harnesses alone. -/
def programTarget : Target :=
  ⟨⟨"app", "src", .primary⟩, [⟨"/p/src/a.cc"⟩, ⟨"/p/src/main.cc"⟩]⟩

def programPlan : Plan where
  compileEdges := [⟨"src/a.cc", "src/a.o"⟩, ⟨"src/main.cc", "src/main.o"⟩]
  linkEdges := [⟨"app", ["src/a.o", "src/main.o"]⟩]
  defaultTarget := "app"

/-- The plan of the program begins that of the program with its harnesses, and a repeated program
stays an error in front of them. -/
theorem assemble_append_harnessTargets :
    harnessTargets = [programTarget] ++ harnessTargets.tail ∧
      Plan.assemble [programTarget] harnessMapper "main" = .ok programPlan ∧
      programPlan.Begins harnessPlan ∧
      Plan.assemble ([programTarget, programTarget] ++ harnessTargets.tail) harnessMapper "main" =
        .error (.duplicateTarget "app") :=
  ⟨rfl, rfl,
    (Plan.assemble_append [programTarget] harnessTargets.tail harnessMapper "main").1 _ _ rfl
      assemble_harnessTargets,
    (Plan.assemble_append [programTarget, programTarget] harnessTargets.tail harnessMapper
      "main").2.1 _ rfl rfl⟩

end NinjaPlan
