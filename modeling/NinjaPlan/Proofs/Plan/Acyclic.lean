import Mathlib.Logic.Relation
import NinjaPlan.Proofs.Plan.Outputs

/-! # Plans without cycles

In a plan an object is made from its source and an executable from its objects.  Objects are
never executables, so unless something that the plan writes is a source, every step leads nearer
to the sources and none leads back (`Plan.acyclic_of_keepsSources`).

Assembling does not look for such a source: a plan keeps its sources and has no cycle exactly if
neither a target nor an object has the path of one, `SourcesApart`.  An object has it only if the
source has the extension of objects. -/

namespace NinjaPlan

/-- One path is made from the other. -/
def Plan.DependsOn (p : Plan) (q r : Path) : Prop :=
  (∃ e ∈ p.compileEdges, q ≈ e.object ∧ r ≈ e.source) ∨
    ∃ l ∈ p.linkEdges, q ≈ l.output ∧ ∃ i ∈ l.inputs, r ≈ i

/-- Nothing is made from itself, at whatever remove. -/
def Plan.Acyclic (p : Plan) : Prop := ∀ q, ¬ Relation.TransGen p.DependsOn q q

/-- The plan writes the path. -/
def Plan.Makes (p : Plan) (q : Path) : Prop := ∃ o ∈ p.outputs, q ≈ o

/-- The plan writes no source. -/
def Plan.KeepsSources (p : Plan) : Prop := ∀ e ∈ p.compileEdges, ¬ p.Makes e.source

/-- No source of a target is what a target or an object is written to. -/
structure SourcesApart (mapper : ObjectMapper) (targets : List Target) : Prop where
  /-- No target has the path of a source. -/
  names : ∀ t ∈ targets, ∀ u ∈ targets, ∀ m, u.Owns mapper m → ¬ t.spec.name ≈ m.source
  /-- No object has the path of a source. -/
  objects : ∀ t ∈ targets, ∀ u ∈ targets, ∀ m n, t.Owns mapper m → u.Owns mapper n →
    ¬ m.object ≈ n.source

namespace Plan

variable {p : Plan} {q r : Path}

theorem makes_iff : p.Makes q ↔
    (∃ e ∈ p.compileEdges, q ≈ e.object) ∨ ∃ l ∈ p.linkEdges, q ≈ l.output := by
  simp [Makes, outputs, or_and_right, exists_or]

/-- How far a path is from the sources: executables are made in two steps, objects in one. -/
def rank (p : Plan) (q : Path) : Nat :=
  if p.linkEdges.any fun l => decide (q ≈ l.output) then 2
  else if p.compileEdges.any fun e => decide (q ≈ e.object) then 1
  else 0

theorem rank_of_output {l : LinkEdge} (hl : l ∈ p.linkEdges) (h : q ≈ l.output) :
    p.rank q = 2 :=
  if_pos (List.any_eq_true.mpr ⟨l, hl, decide_eq_true h⟩)

theorem rank_pos_of_object {e : CompileEdge} (he : e ∈ p.compileEdges) (h : q ≈ e.object) :
    0 < p.rank q := by
  have hobject : (p.compileEdges.any fun e => decide (q ≈ e.object)) = true :=
    List.any_eq_true.mpr ⟨e, he, decide_eq_true h⟩
  unfold rank
  rw [if_pos hobject]
  split <;> omega

theorem rank_of_not_output (h : ∀ l ∈ p.linkEdges, ¬ q ≈ l.output) : p.rank q ≤ 1 := by
  have houtput : ¬ (p.linkEdges.any fun l => decide (q ≈ l.output)) = true := by simpa using h
  unfold rank
  rw [if_neg houtput]
  split <;> omega

theorem rank_of_not_makes (h : ¬ p.Makes q) : p.rank q = 0 := by
  rw [makes_iff, not_or, not_exists, not_exists] at h
  obtain ⟨hobjects, houtputs⟩ := h
  have hobject : ¬ (p.compileEdges.any fun e => decide (q ≈ e.object)) = true := by
    simpa using hobjects
  have houtput : ¬ (p.linkEdges.any fun l => decide (q ≈ l.output)) = true := by
    simpa using houtputs
  unfold rank
  rw [if_neg houtput, if_neg hobject]

theorem makes_of_equiv (h : q ≈ r) (hr : p.Makes r) : p.Makes q := by
  obtain ⟨o, ho, hro⟩ := hr
  exact ⟨o, ho, Path.equiv_trans h hro⟩

section keeps

variable (hinputs : ∀ l ∈ p.linkEdges, ∀ i ∈ l.inputs, ∃ e ∈ p.compileEdges, e.object ≈ i)
  (hapart : ∀ l ∈ p.linkEdges, ∀ e ∈ p.compileEdges, ¬ e.object ≈ l.output)
  (hkeeps : p.KeepsSources)
include hinputs hapart hkeeps

/-- Where sources are kept, every step leads nearer to them. -/
theorem rank_lt_of_dependsOn (h : p.DependsOn q r) : p.rank r < p.rank q := by
  rcases h with ⟨e, he, hobject, hsource⟩ | ⟨l, hl, houtput, i, hi, hinput⟩
  · have hr : ¬ p.Makes r := fun hr => hkeeps e he (makes_of_equiv (Path.equiv_symm hsource) hr)
    rw [rank_of_not_makes hr]
    exact rank_pos_of_object he hobject
  · obtain ⟨e, he, hei⟩ := hinputs l hl i hi
    have hr : ∀ k ∈ p.linkEdges, ¬ r ≈ k.output := fun k hk hrk =>
      hapart k hk e he (Path.equiv_trans hei (Path.equiv_trans (Path.equiv_symm hinput) hrk))
    rw [rank_of_output hl houtput]
    exact Nat.lt_succ_of_le (rank_of_not_output hr)

theorem rank_lt_of_transGen (h : Relation.TransGen p.DependsOn q r) : p.rank r < p.rank q := by
  induction h with
  | single hstep => exact rank_lt_of_dependsOn hinputs hapart hkeeps hstep
  | tail _ hstep ih => exact (rank_lt_of_dependsOn hinputs hapart hkeeps hstep).trans ih

/-- A plan that keeps its sources has no cycle, if it links objects only and into other paths. -/
theorem acyclic_of_keepsSources : p.Acyclic :=
  fun _ hcycle => Nat.lt_irrefl _ (rank_lt_of_transGen hinputs hapart hkeeps hcycle)

end keeps

end Plan

variable {mapper : ObjectMapper} {entryPoint : Text} {targets : List Target} {p : Plan}

/-- Sources are kept exactly if they are apart from what the targets bring into being. -/
theorem Assembly.Covers.keepsSources_iff {a : Assembly}
    (h : a.Covers mapper entryPoint targets) (name : Path) :
    Plan.KeepsSources ⟨a.compileEdges, a.linkEdges, name⟩ ↔ SourcesApart mapper targets := by
  constructor
  · intro hkeeps
    refine ⟨?_, ?_⟩
    · intro t ht u hu m hm hname
      obtain ⟨e, he, hes, -⟩ := h.compiled u hu m hm
      obtain ⟨l, hl, houtput⟩ := h.exists_linkEdge ht
      refine hkeeps e he (Plan.makes_iff.mpr (Or.inr ⟨l, hl, ?_⟩))
      rw [houtput]
      exact Path.equiv_trans hes (Path.equiv_symm hname)
    · intro t ht u hu m n hm hn hobject
      obtain ⟨e, he, hes, -⟩ := h.compiled u hu n hn
      obtain ⟨f, hf, -, hfo⟩ := h.compiled t ht m hm
      refine hkeeps e he (Plan.makes_iff.mpr (Or.inl ⟨f, hf, ?_⟩))
      exact Path.equiv_trans hes (Path.equiv_symm (Path.equiv_trans hfo hobject))
  · intro hapart e he hmakes
    obtain ⟨u, hu, hn⟩ := h.asked e he
    rcases Plan.makes_iff.mp hmakes with ⟨f, hf, hobject⟩ | ⟨l, hl, houtput⟩
    · obtain ⟨t, ht, hm⟩ := h.asked f hf
      exact hapart.objects t ht u hu _ _ hm hn (Path.equiv_symm hobject)
    · obtain ⟨before, t, after, rfl, hname, -⟩ := h.exists_links hl
      refine hapart.names t (by simp) u hu _ hn ?_
      rw [← hname]
      exact Path.equiv_symm houtput

theorem sourcesApart_iff_of_extension
    (h : ∀ t ∈ targets, ∀ m, t.Owns mapper m → m.source.extension ≠ some objectExtension) :
    SourcesApart mapper targets ↔
      ∀ t ∈ targets, ∀ u ∈ targets, ∀ m, u.Owns mapper m → ¬ t.spec.name ≈ m.source := by
  refine ⟨SourcesApart.names, fun hnames => ⟨hnames, ?_⟩⟩
  intro t ht u hu m n hm hn hobject
  obtain ⟨s, -, hmap⟩ := hm
  obtain ⟨v, hv, hmap'⟩ := hn
  obtain ⟨-, ⟨name, hname⟩, -⟩ := ObjectMapper.map_cases hmap'
  exact h u hu n ⟨v, hv, hmap'⟩ (ObjectMapper.extension_of_object_equiv hmap hobject hname)

/-- **A plan keeps its sources and has no cycle exactly if its sources are apart** from its
targets and objects.  If no source has the extension of objects, that is a matter of the targets'
names alone. -/
theorem Plan.acyclic_and_keepsSources_iff
    (h : Plan.assemble targets mapper entryPoint = .ok p) :
    (p.Acyclic ∧ p.KeepsSources ↔ SourcesApart mapper targets) ∧
      ((∀ t ∈ targets, ∀ m, t.Owns mapper m → m.source.extension ≠ some objectExtension) →
        (p.Acyclic ∧ p.KeepsSources ↔
          ∀ t ∈ targets, ∀ u ∈ targets, ∀ m, u.Owns mapper m → ¬ t.spec.name ≈ m.source)) := by
  obtain ⟨a, hc, hfinish⟩ := Plan.assemble_covers h
  obtain ⟨hshadow, first, -, rfl⟩ := Assembly.finish_cases hfinish
  have hacyclic := Plan.acyclic_of_keepsSources (p := ⟨a.compileEdges, a.linkEdges, first.spec.name⟩)
    (fun l hl i hi => (hc.existsUnique_input hl hi).exists) hshadow
  have hiff := hc.keepsSources_iff first.spec.name
  rw [and_iff_right_of_imp hacyclic, hiff]
  exact ⟨Iff.rfl, sourcesApart_iff_of_extension⟩

theorem acyclic_and_keepsSources_harnessPlan :
    Plan.assemble harnessTargets harnessMapper "main" = .ok harnessPlan ∧
      harnessPlan.Acyclic ∧ harnessPlan.KeepsSources := by
  obtain ⟨-, hiff⟩ := Plan.acyclic_and_keepsSources_iff assemble_harnessTargets
  have hextension : ∀ m ∈ harnessSources, m.source.extension ≠ some objectExtension := by decide
  have hnames : ∀ t ∈ harnessTargets, ∀ m ∈ harnessSources, ¬ t.spec.name ≈ m.source := by decide
  refine ⟨assemble_harnessTargets, (hiff ?_).mpr ?_⟩
  · intro t ht m hm
    exact hextension m (mem_harnessSources ht hm)
  · intro t ht u hu m hm
    exact hnames t ht m (mem_harnessSources hu hm)

/-! ### A target named like a source -/

/-- The plan of a target that has the path of its own source. -/
def ownSourcePlan : Plan where
  compileEdges := [⟨"src/main.cc", "src/main.o"⟩]
  linkEdges := [⟨"src/main.cc", ["src/main.o"]⟩]
  defaultTarget := "src/main.cc"

/-- The target is made from itself, and making it writes over the source. -/
theorem not_acyclic_ownSourcePlan :
    Plan.assemble [⟨⟨"src/main.cc", "src", .primary⟩, [⟨"/p/src/main.cc"⟩]⟩] harnessMapper
        "main" = .ok ownSourcePlan ∧
      ¬ ownSourcePlan.Acyclic ∧ ¬ ownSourcePlan.KeepsSources := by
  have hlink : ownSourcePlan.DependsOn "src/main.cc" "src/main.o" :=
    Or.inr ⟨_, List.mem_cons_self, rfl, _, List.mem_cons_self, rfl⟩
  have hcompile : ownSourcePlan.DependsOn "src/main.o" "src/main.cc" :=
    Or.inl ⟨_, List.mem_cons_self, rfl, rfl⟩
  refine ⟨rfl, ?_, ?_⟩
  · intro hacyclic
    exact hacyclic "src/main.cc" (.tail (.single hlink) hcompile)
  · intro hkeeps
    exact hkeeps _ List.mem_cons_self ⟨"src/main.cc", by decide, rfl⟩

end NinjaPlan
