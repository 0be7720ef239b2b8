import Mathlib.Logic.ExistsUnique
import NinjaPlan.Proofs.Plan.Distinct
import NinjaPlan.Proofs.Plan.Validity
import NinjaPlan.Proofs.Source

/-! # The edges of a plan

`Plan.Realizes` says what the plan of some targets is like as a graph: every input comes from
one compile edge, no two edges write one file, the compile edges are those of the targets'
sources and the link edges those of the targets.  Every plan that is assembled is like that
(`Plan.assemble_realizes`). -/

namespace NinjaPlan

/-- What the plan of targets is like. -/
structure Plan.Realizes (p : Plan) (mapper : ObjectMapper) (targets : List Target) : Prop where
  /-- Every input of a link edge is the object of exactly one compile edge. -/
  inputs : ∀ l ∈ p.linkEdges, ∀ i ∈ l.inputs, ∃! e, e ∈ p.compileEdges ∧ e.object ≈ i
  /-- The objects differ from each other. -/
  objects_distinct : p.compileEdges.Pairwise fun e f => ¬ e.object ≈ f.object
  /-- The outputs differ from each other. -/
  outputs_distinct : p.linkEdges.Pairwise fun l k => ¬ l.output ≈ k.output
  /-- No output is an object. -/
  outputs_apart : ∀ l ∈ p.linkEdges, ∀ e ∈ p.compileEdges, ¬ l.output ≈ e.object
  /-- Every source of a target is mapped and has one compile edge, the only one of that source
  and the only one of its object. -/
  compiled : ∀ t ∈ targets, ∀ s ∈ t.sources, ∃ m, mapper.map s = .ok m ∧
    ∃ e ∈ p.compileEdges, e.Compiles m ∧
      ∀ f ∈ p.compileEdges, f.source ≈ m.source ∨ f.object ≈ m.object → f = e
  /-- Every compile edge is that of a source of a target. -/
  asked : ∀ e ∈ p.compileEdges, ∃ t ∈ targets, t.Owns mapper ⟨e.source, e.object⟩
  /-- The link edges are those of the targets, in order, and are found by the targets' names. -/
  linked : List.Forall₂ (fun t l => l.output = t.spec.name ∧
    ∀ name, name ≈ t.spec.name → p.linkEdge name = some l) targets p.linkEdges
  /-- The default is the first primary target. -/
  default : (targets.find? fun t => decide (t.spec.kind = .primary)).map (fun t => t.spec.name) =
    some p.defaultTarget

variable {mapper : ObjectMapper} {entryPoint : Text} {targets : List Target} {p : Plan}

theorem Plan.linkEdge_eq_some (hd : p.linkEdges.Pairwise fun l k => ¬ l.output ≈ k.output)
    {l : LinkEdge} (hl : l ∈ p.linkEdges) {name : Path} (hn : name ≈ l.output) :
    p.linkEdge name = some l := by
  unfold Plan.linkEdge
  cases hf : p.linkEdges.find? fun e => decide (e.output ≈ name) with
  | none => exact absurd (decide_eq_true (Path.equiv_symm hn)) (List.find?_eq_none.mp hf l hl)
  | some k =>
      have hk : k.output ≈ name := by simpa using List.find?_some hf
      rw [eq_of_pairwise_not_equiv hd (List.mem_of_find?_eq_some hf) hl (Path.equiv_trans hk hn)]

/-- The object of an own source, or one that the target takes over: that of a source of the target
it reuses, but for the entry point. -/
def Target.Takes (mapper : ObjectMapper) (entryPoint : Text) (others : List Target) (t : Target)
    (o : Path) : Prop :=
  (∃ s ∈ t.sources, mapper.HasObject s o) ∨
    ∃ name, t.spec.kind = .secondary name ∧ ∃ r ∈ others, r.spec.name ≈ name ∧
      ∃ s ∈ r.sources, s.stem ≠ some entryPoint ∧ mapper.HasObject s o

theorem Target.Links.takes {before : List Target} {t : Target} {inputs : List Path}
    (h : t.Links mapper entryPoint before inputs) {i : Path} (hi : i ∈ inputs) :
    t.Takes mapper entryPoint before i := by
  obtain ⟨own, reused, hown, hreuses, rfl⟩ := h
  rw [distinctPaths_eq] at hi
  rcases List.mem_append.mp ((firstSpellings_sublist _).subset hi) with hi | hi
  · exact Or.inl (forall₂_exists_left hown hi)
  · unfold Target.Reuses at hreuses
    cases hk : t.spec.kind with
    | primary =>
        simp only [hk] at hreuses
        rw [hreuses] at hi
        cases hi
    | secondary name =>
        simp only [hk] at hreuses
        obtain ⟨r, hr, hname, hreused⟩ := hreuses
        obtain ⟨s, hs, ho⟩ := forall₂_exists_left hreused hi
        obtain ⟨hs, hstem⟩ := List.mem_filter.mp hs
        exact Or.inr ⟨name, hk, r, hr, hname, s, hs, of_decide_eq_true hstem, ho⟩

namespace Assembly.Covers

variable {a : Assembly} (h : a.Covers mapper entryPoint targets)
include h

theorem outputs_distinct : a.linkEdges.Pairwise fun l k => ¬ l.output ≈ k.output := by
  have hnames : (targets.map fun t => t.spec.name).Pairwise fun m n => ¬ m ≈ n :=
    List.pairwise_map.mpr h.names
  rw [← h.outputs] at hnames
  exact List.pairwise_map.mp hnames

theorem forall₂_outputs :
    List.Forall₂ (fun t (l : LinkEdge) => l.output = t.spec.name) targets a.linkEdges := by
  have hmaps : List.Forall₂ (fun n o => o = n) (targets.map fun t => t.spec.name)
      (a.linkEdges.map LinkEdge.output) := by
    rw [h.outputs]
    exact List.forall₂_same.mpr fun _ _ => rfl
  exact List.forall₂_map_left_iff.mp (List.forall₂_map_right_iff.mp hmaps)

theorem exists_links {l : LinkEdge} (hl : l ∈ a.linkEdges) :
    ∃ before t after, targets = before ++ t :: after ∧ l.output = t.spec.name ∧
      t.Links mapper entryPoint before l.inputs := by
  have hout : l.output ∈ targets.map fun t => t.spec.name := h.outputs ▸ List.mem_map_of_mem hl
  obtain ⟨t, ht, hname⟩ := List.mem_map.mp hout
  obtain ⟨before, after, hsplit⟩ := List.mem_iff_append.mp ht
  obtain ⟨k, hk, hkname, hlinks⟩ := h.linked before t after hsplit
  have hkl : k.output ≈ l.output := by
    rw [hkname, ← hname]
  obtain rfl := eq_of_pairwise_not_equiv h.outputs_distinct hk hl hkl
  exact ⟨before, t, after, hsplit, hkname, hlinks⟩

theorem exists_owner_of_input {l : LinkEdge} (hl : l ∈ a.linkEdges) {i : Path}
    (hi : i ∈ l.inputs) : ∃ u ∈ targets, ∃ m, u.Owns mapper m ∧ m.object = i := by
  obtain ⟨before, t, after, hsplit, -, hlinks⟩ := h.exists_links hl
  rw [hsplit]
  rcases hlinks.takes hi with ⟨s, hs, m, hm, ho⟩ | ⟨-, -, r, hr, -, s, hs, -, m, hm, ho⟩
  · exact ⟨t, List.mem_append_right _ List.mem_cons_self, m, ⟨s, hs, hm⟩, ho⟩
  · exact ⟨r, List.mem_append_left _ hr, m, ⟨s, hs, hm⟩, ho⟩

theorem existsUnique_input {l : LinkEdge} (hl : l ∈ a.linkEdges) {i : Path} (hi : i ∈ l.inputs) :
    ∃! e, e ∈ a.compileEdges ∧ e.object ≈ i := by
  obtain ⟨u, hu, m, hm, rfl⟩ := h.exists_owner_of_input hl hi
  obtain ⟨e, he, -, ho⟩ := h.compiled u hu m hm
  refine ⟨e, ⟨he, ho⟩, ?_⟩
  rintro f ⟨hf, hfo⟩
  exact h.distinct.eq_of_equiv hf he (Path.equiv_trans hfo (Path.equiv_symm ho))

/-- Every source has one compile edge, whether one looks for the source or for the object. -/
theorem exists_only_edge {t : Target} (ht : t ∈ targets) {s : SourceFile} (hs : s ∈ t.sources) :
    ∃ m, mapper.map s = .ok m ∧ ∃ e ∈ a.compileEdges, e.Compiles m ∧
      ∀ f ∈ a.compileEdges, f.source ≈ m.source ∨ f.object ≈ m.object → f = e := by
  obtain ⟨m, hm⟩ := h.exists_map ht hs
  obtain ⟨e, he, hsource, hobject⟩ := h.compiled t ht m ⟨s, hs, hm⟩
  refine ⟨m, hm, e, he, ⟨hsource, hobject⟩, ?_⟩
  intro f hf hsame
  have hfo : f.object ≈ m.object := by
    rcases hsame with hfs | hfo
    · obtain ⟨u, -, v, -, hv⟩ := h.asked f hf
      exact ObjectMapper.object_equiv hv hm hfs
    · exact hfo
  exact h.distinct.eq_of_equiv hf he (Path.equiv_trans hfo (Path.equiv_symm hobject))

end Assembly.Covers

/-- No input of a link edge is the empty path. -/
def Plan.InputsNonempty (p : Plan) : Prop := ∀ l ∈ p.linkEdges, ∀ i ∈ l.inputs, i.text ≠ []

/-- Objects have names, so no plan that is assembled links an empty path. -/
theorem Plan.inputsNonempty_of_assemble (h : Plan.assemble targets mapper entryPoint = .ok p) :
    p.InputsNonempty := by
  obtain ⟨a, hc, hfinish⟩ := Plan.assemble_covers h
  obtain ⟨-, t, -, rfl⟩ := Assembly.finish_cases hfinish
  intro l hl i hi
  obtain ⟨u, -, m, ⟨s, -, hm⟩, rfl⟩ := hc.exists_owner_of_input hl hi
  exact ObjectMapper.object_text_ne_nil hm

/-- **Every plan realizes its targets.** -/
theorem Plan.assemble_realizes (h : Plan.assemble targets mapper entryPoint = .ok p) :
    p.Realizes mapper targets := by
  obtain ⟨a, hc, hfinish⟩ := Plan.assemble_covers h
  obtain ⟨hshadow, t, hfirst, rfl⟩ := Assembly.finish_cases hfinish
  refine
    { inputs := fun l hl i hi => hc.existsUnique_input hl hi
      objects_distinct := hc.distinct
      outputs_distinct := hc.outputs_distinct
      outputs_apart := fun l hl e he ho => hshadow l hl e he (Path.equiv_symm ho)
      compiled := fun t ht s hs => hc.exists_only_edge ht hs
      asked := hc.asked
      linked := ?_
      default := by rw [hfirst]; rfl }
  have houtputs := hc.forall₂_outputs
  refine List.forall₂_iff_zip.mpr ⟨houtputs.length_eq, fun hzip => ?_⟩
  have hname := List.forall₂_zip houtputs hzip
  refine ⟨hname, fun name hn => ?_⟩
  exact Plan.linkEdge_eq_some hc.outputs_distinct (List.of_mem_zip hzip).2 (hname ▸ hn)

/-! ### A program with two harnesses -/

/-- A program, a harness that compiles one of the program's sources too, and a harness that
reuses the first one. -/
def harnessTargets : List Target := [
  ⟨⟨"app", "src", .primary⟩, [⟨"/p/src/a.cc"⟩, ⟨"/p/src/main.cc"⟩]⟩,
  ⟨⟨"tests/run", "tests", .secondary "app"⟩, [⟨"/p/tests/t.cc"⟩, ⟨"/p/src//a.cc"⟩]⟩,
  ⟨⟨"tests/all", "tests", .secondary "tests//run"⟩, [⟨"/p/tests/main.cc"⟩]⟩]

def harnessMapper : ObjectMapper := { root := "/p" }

/-- The plan of the three targets. -/
def harnessPlan : Plan where
  compileEdges := [⟨"src/a.cc", "src/a.o"⟩, ⟨"src/main.cc", "src/main.o"⟩,
    ⟨"tests/t.cc", "tests/t.o"⟩, ⟨"tests/main.cc", "tests/main.o"⟩]
  linkEdges := [⟨"app", ["src/a.o", "src/main.o"]⟩, ⟨"tests/run", ["tests/t.o", "src//a.o"]⟩,
    ⟨"tests/all", ["tests/main.o", "tests/t.o", "src//a.o"]⟩]
  defaultTarget := "app"

theorem assemble_harnessTargets :
    Plan.assemble harnessTargets harnessMapper "main" = .ok harnessPlan := rfl

theorem harnessPlan_realizes :
    Plan.assemble harnessTargets harnessMapper "main" = .ok harnessPlan ∧
      harnessPlan.Realizes harnessMapper harnessTargets :=
  ⟨assemble_harnessTargets, Plan.assemble_realizes assemble_harnessTargets⟩

end NinjaPlan
