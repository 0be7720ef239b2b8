import Mathlib.Data.List.Nodup
import NinjaPlan.Proofs.Path.Normal
import NinjaPlan.Proofs.Plan.Edges

/-! # The files that a plan writes

No two outputs of a plan are the same path, but different paths may still have one normal form:
`app` and `./app`, or `src/main.o` and `./src/main.o`.  Targets are checked against each other as
they are spelled, so whether the normal forms of all outputs differ depends on the targets.  It
takes the conditions of a valid list of targets once more, this time for normal forms:
`NormallyApart`, which is all that it takes (`Plan.normalize_outputs_nodup_iff`). -/

namespace NinjaPlan

/-- The paths that a plan writes, those of objects first. -/
def Plan.outputs (p : Plan) : List Path :=
  p.compileEdges.map CompileEdge.object ++ p.linkEdges.map LinkEdge.output

/-- Normal forms keep apart what the targets bring into being. -/
structure NormallyApart (mapper : ObjectMapper) (targets : List Target) : Prop where
  /-- No two targets have one normal form. -/
  names : targets.Pairwise fun t u => t.spec.name.normalize ≠ u.spec.name.normalize
  /-- Objects of one normal form come from one source. -/
  objects : ∀ t ∈ targets, ∀ u ∈ targets, ∀ m n, t.Owns mapper m → u.Owns mapper n →
    m.object.normalize = n.object.normalize → m.source ≈ n.source
  /-- No target has the normal form of an object. -/
  apart : ∀ t ∈ targets, ∀ u ∈ targets, ∀ m, u.Owns mapper m →
    t.spec.name.normalize ≠ m.object.normalize

/-- The target and its objects are written in normal form. -/
def Target.WritesNormal (t : Target) (mapper : ObjectMapper) : Prop :=
  t.spec.name.normalize ≈ t.spec.name ∧ ∀ m, t.Owns mapper m → m.object.normalize ≈ m.object

/-- Of paths in normal form only those that are the same share it. -/
theorem Path.equiv_of_normalize_eq {p q : Path} (hp : p.normalize ≈ p) (hq : q.normalize ≈ q)
    (h : p.normalize = q.normalize) : p ≈ q :=
  Path.equiv_trans (Path.equiv_symm hp) (h ▸ hq)

variable {mapper : ObjectMapper} {entryPoint : Text} {targets : List Target} {p : Plan}

/-- Where everything is written in normal form, valid targets are apart in that form too. -/
theorem ValidTargets.normallyApart (hv : ValidTargets mapper targets)
    (h : ∀ t ∈ targets, t.WritesNormal mapper) : NormallyApart mapper targets where
  names := by
    refine hv.distinct.imp_of_mem fun ht hu hne heq => hne ?_
    exact Path.equiv_of_normalize_eq (h _ ht).1 (h _ hu).1 heq
  objects := by
    intro t ht u hu m n hm hn heq
    refine hv.injective t ht u hu m n hm hn ?_
    exact Path.equiv_of_normalize_eq ((h t ht).2 m hm) ((h u hu).2 n hn) heq
  apart := by
    intro t ht u hu m hm heq
    refine hv.apart t ht u hu m hm ?_
    exact Path.equiv_of_normalize_eq (h t ht).1 ((h u hu).2 m hm) heq

namespace Assembly.Covers

variable {a : Assembly} (h : a.Covers mapper entryPoint targets)
include h

theorem normalize_objects_nodup_iff :
    ((a.compileEdges.map CompileEdge.object).map Path.normalize).Nodup ↔
      ∀ t ∈ targets, ∀ u ∈ targets, ∀ m n, t.Owns mapper m → u.Owns mapper n →
        m.object.normalize = n.object.normalize → m.source ≈ n.source := by
  rw [List.map_map]
  constructor
  · intro hnodup t ht u hu m n hm hn heq
    obtain ⟨e, he, hes, heo⟩ := h.compiled t ht m hm
    obtain ⟨f, hf, hfs, hfo⟩ := h.compiled u hu n hn
    have hef : e.object.normalize = f.object.normalize := by
      rw [Path.normalize_eq_of_equiv heo, heq, Path.normalize_eq_of_equiv hfo]
    obtain rfl := List.inj_on_of_nodup_map hnodup he hf hef
    exact Path.equiv_trans (Path.equiv_symm hes) hfs
  · intro hsource
    refine List.pairwise_map.mpr (h.distinct.imp_of_mem fun {e f} he hf hne heq => hne ?_)
    obtain ⟨t, ht, s, hs, hm⟩ := h.asked e he
    obtain ⟨u, hu, v, hv, hn⟩ := h.asked f hf
    exact ObjectMapper.object_equiv hm hn (hsource t ht u hu _ _ ⟨s, hs, hm⟩ ⟨v, hv, hn⟩ heq)

theorem normalize_linkOutputs_nodup_iff :
    ((a.linkEdges.map LinkEdge.output).map Path.normalize).Nodup ↔
      targets.Pairwise fun t u => t.spec.name.normalize ≠ u.spec.name.normalize := by
  rw [h.outputs, List.map_map]
  exact List.pairwise_map

theorem normalize_apart_iff :
    (∀ e ∈ a.compileEdges, ∀ l ∈ a.linkEdges, e.object.normalize ≠ l.output.normalize) ↔
      ∀ t ∈ targets, ∀ u ∈ targets, ∀ m, u.Owns mapper m →
        t.spec.name.normalize ≠ m.object.normalize := by
  constructor
  · intro hapart t ht u hu m hm heq
    obtain ⟨l, hl, hname⟩ := h.exists_linkEdge ht
    obtain ⟨e, he, -, heo⟩ := h.compiled u hu m hm
    refine hapart e he l hl ?_
    rw [Path.normalize_eq_of_equiv heo, hname, heq]
  · intro hapart e he l hl heq
    obtain ⟨u, hu, hown⟩ := h.asked e he
    obtain ⟨before, t, after, rfl, hname, -⟩ := h.exists_links hl
    refine hapart t (by simp) u hu _ hown ?_
    rw [← hname, ← heq]

end Assembly.Covers

/-- **The outputs of a plan differ in normal form exactly if its targets are apart in it.**  They
are if the targets and their objects are written in normal form. -/
theorem Plan.normalize_outputs_nodup_iff (h : Plan.assemble targets mapper entryPoint = .ok p) :
    ((p.outputs.map Path.normalize).Nodup ↔ NormallyApart mapper targets) ∧
      ((∀ t ∈ targets, t.WritesNormal mapper) → (p.outputs.map Path.normalize).Nodup) := by
  have hv := validTargets_of_assemble h
  obtain ⟨a, hc, hfinish⟩ := Plan.assemble_covers h
  obtain ⟨-, first, -, rfl⟩ := Assembly.finish_cases hfinish
  have hiff : ((Plan.outputs ⟨a.compileEdges, a.linkEdges, first.spec.name⟩).map
      Path.normalize).Nodup ↔ NormallyApart mapper targets := by
    rw [Plan.outputs, List.map_append, List.nodup_append, hc.normalize_objects_nodup_iff,
      hc.normalize_linkOutputs_nodup_iff]
    simp only [List.forall_mem_map]
    rw [hc.normalize_apart_iff]
    exact ⟨fun ⟨hobjects, hnames, hapart⟩ => ⟨hnames, hobjects, hapart⟩,
      fun hapart => ⟨hapart.objects, hapart.names, hapart.apart⟩⟩
  exact ⟨hiff, fun hnormal => hiff.mpr (hv.normallyApart hnormal)⟩

/-- The mapped sources of the three targets. -/
def harnessSources : List MappedSource := [⟨"src/a.cc", "src/a.o"⟩, ⟨"src/main.cc", "src/main.o"⟩,
  ⟨"tests/t.cc", "tests/t.o"⟩, ⟨"src//a.cc", "src//a.o"⟩, ⟨"tests/main.cc", "tests/main.o"⟩]

theorem mem_harnessSources {t : Target} (ht : t ∈ harnessTargets) {m : MappedSource}
    (hm : t.Owns harnessMapper m) : m ∈ harnessSources := by
  obtain ⟨s, hs, hmap⟩ := hm
  simp only [harnessTargets, List.mem_cons, List.not_mem_nil, or_false] at ht
  rcases ht with rfl | rfl | rfl <;>
    simp only [List.mem_cons, List.not_mem_nil, or_false] at hs
  · rcases hs with rfl | rfl <;> (obtain rfl := Except.ok.inj hmap; decide)
  · rcases hs with rfl | rfl <;> (obtain rfl := Except.ok.inj hmap; decide)
  · obtain rfl := hs
    obtain rfl := Except.ok.inj hmap
    decide

theorem normalize_outputs_nodup_harnessPlan :
    Plan.assemble harnessTargets harnessMapper "main" = .ok harnessPlan ∧
      NormallyApart harnessMapper harnessTargets ∧
      (harnessPlan.outputs.map Path.normalize).Nodup := by
  obtain ⟨hiff, hnormal⟩ := Plan.normalize_outputs_nodup_iff assemble_harnessTargets
  have hsources : ∀ m ∈ harnessSources, m.object.normalize ≈ m.object := by decide
  have hnames : ∀ t ∈ harnessTargets, t.spec.name.normalize ≈ t.spec.name := by decide
  have hnodup := hnormal fun t ht =>
    ⟨hnames t ht, fun m hm => hsources m (mem_harnessSources ht hm)⟩
  exact ⟨assemble_harnessTargets, hiff.mp hnodup, hnodup⟩

/-- An executable in place of an object: the two are not the same path, but have one normal
form. -/
theorem normalize_outputs_of_dotted_name :
    Plan.assemble
        [⟨⟨"app", "src", .primary⟩, [⟨"/p/src/main.cc"⟩]⟩,
          ⟨⟨"./src/main.o", "src", .primary⟩, [⟨"/p/src/main.cc"⟩]⟩] harnessMapper "main" =
      .ok ⟨[⟨"src/main.cc", "src/main.o"⟩],
        [⟨"app", ["src/main.o"]⟩, ⟨"./src/main.o", ["src/main.o"]⟩], "app"⟩ ∧
    ¬ ("./src/main.o" : Path) ≈ "src/main.o" ∧
      Path.normalize "./src/main.o" = Path.normalize "src/main.o" :=
  ⟨rfl, by decide, rfl⟩

end NinjaPlan
