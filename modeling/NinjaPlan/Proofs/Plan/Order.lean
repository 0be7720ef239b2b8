import Mathlib.Data.List.Perm.Basic
import NinjaPlan.Proofs.Plan.Edges

/-! # The order of targets and sources

Targets are `Rearranged` if they come in another order, and the sources of each in another order.
Assembling takes targets and sources as they come: it keeps the first spelling of a path, remembers
the first source of an object and lets a target reuse those before it.

None of this shows in what is built.  Valid targets stay valid (`ValidTargets.rearrange`), as long
as a target stays behind the one that it reuses (`ReusesInOrder`).  What a target links is what it
`Takes`, which does not look at the order, so a plan of one list is `Within` a plan of the other.
If only the targets have moved, each of them links the same list (`Target.Links.unique`). -/

namespace NinjaPlan

/-- The targets have one description, and the sources of the one are those of the other. -/
structure Target.Shuffled (t u : Target) : Prop where
  spec : t.spec = u.spec
  sources : t.sources.Perm u.sources

/-- The targets in another order, each with its sources in another order. -/
def Rearranged (targets others : List Target) : Prop :=
  ∃ shuffled, List.Forall₂ Target.Shuffled targets shuffled ∧ shuffled.Perm others

/-- No target stands in front of the one that it reuses. -/
def ReusesInOrder (targets : List Target) : Prop :=
  ∀ before t after, targets = before ++ t :: after → ∀ name, t.spec.kind = .secondary name →
    (∃ u ∈ after, u.spec.name ≈ name) → ∃ u ∈ before, u.spec.name ≈ name

/-- What the plan builds, the other one builds from no fewer files. -/
structure Plan.Within (p q : Plan) : Prop where
  /-- Every source is compiled to the same object. -/
  compileEdges : ∀ e ∈ p.compileEdges, ∃ f ∈ q.compileEdges, f.Compiles ⟨e.source, e.object⟩
  /-- Every output is linked from all its inputs. -/
  linkEdges : ∀ name l, p.linkEdge name = some l → ∃ k, q.linkEdge name = some k ∧
    k.output = l.output ∧ ∀ i ∈ l.inputs, ∃ j ∈ k.inputs, j ≈ i

variable {mapper : ObjectMapper} {entryPoint : Text} {targets others : List Target}

/-! ### Rearranged targets -/

theorem Target.Shuffled.symm {t u : Target} (h : t.Shuffled u) : u.Shuffled t :=
  ⟨h.spec.symm, h.sources.symm⟩

theorem Target.Shuffled.owns {t u : Target} (h : t.Shuffled u) {m : MappedSource}
    (hm : t.Owns mapper m) : u.Owns mapper m := by
  obtain ⟨s, hs, hm⟩ := hm
  exact ⟨s, h.sources.subset hs, hm⟩

namespace Rearranged

theorem symm (h : Rearranged targets others) : Rearranged others targets := by
  obtain ⟨shuffled, hshuffled, hperm⟩ := h
  have hback : List.Forall₂ Target.Shuffled shuffled targets :=
    hshuffled.flip.imp fun _ _ h => Target.Shuffled.symm h
  exact List.perm_comp_forall₂ hperm.symm hback

theorem exists_shuffled (h : Rearranged targets others) {t : Target} (ht : t ∈ targets) :
    ∃ u ∈ others, t.Shuffled u := by
  obtain ⟨shuffled, hshuffled, hperm⟩ := h
  obtain ⟨u, hu, htu⟩ := forall₂_exists_right hshuffled ht
  exact ⟨u, hperm.subset hu, htu⟩

theorem distinct (h : Rearranged targets others)
    (hd : targets.Pairwise fun t u => ¬ t.spec.name ≈ u.spec.name) :
    others.Pairwise fun t u => ¬ t.spec.name ≈ u.spec.name := by
  obtain ⟨shuffled, hshuffled, hperm⟩ := h
  have hnames : targets.map (fun t => t.spec.name) = shuffled.map fun t => t.spec.name :=
    List.forall₂_eq_eq_eq ▸ List.forall₂_map_left_iff.mpr (List.forall₂_map_right_iff.mpr
      (hshuffled.imp fun _ _ h => congrArg TargetSpec.name h.spec))
  have hd' : (targets.map fun t => t.spec.name).Pairwise fun m n => ¬ m ≈ n :=
    List.pairwise_map.mpr hd
  rw [hnames] at hd'
  exact (hperm.pairwise_iff fun h h' => h (Path.equiv_symm h')).mp (List.pairwise_map.mp hd')

end Rearranged

namespace ValidTargets

theorem reusesInOrder (hv : ValidTargets mapper targets) : ReusesInOrder targets :=
  fun before t after hsplit name hk _ => hv.reused before t after hsplit name hk

/-- Targets that are valid in one order are valid in every order in which each comes behind the one
that it reuses. -/
theorem rearrange (hv : ValidTargets mapper targets) (h : Rearranged targets others)
    (horder : ReusesInOrder others) : ValidTargets mapper others where
  distinct := h.distinct hv.distinct
  mapped := by
    intro u hu s hs
    obtain ⟨t, ht, htu⟩ := h.symm.exists_shuffled hu
    exact hv.mapped t ht s (htu.sources.subset hs)
  injective := by
    intro u hu u' hu' m n hm hn
    obtain ⟨t, ht, htu⟩ := h.symm.exists_shuffled hu
    obtain ⟨t', ht', htu'⟩ := h.symm.exists_shuffled hu'
    exact hv.injective t ht t' ht' m n (htu.owns hm) (htu'.owns hn)
  reused := by
    intro before u after hsplit name hk
    obtain ⟨t, ht, htu⟩ := h.symm.exists_shuffled (t := u) (by simp [hsplit])
    obtain ⟨first, last, hfirst⟩ := List.mem_iff_append.mp ht
    obtain ⟨r, hr, hname⟩ := hv.reused first t last hfirst name (htu.spec ▸ hk)
    obtain ⟨r', hr', hrr'⟩ := h.exists_shuffled (t := r) (by simp [hfirst, hr])
    rw [hrr'.spec] at hname
    rw [hsplit] at hr'
    rcases List.mem_append.mp hr' with hr' | hr'
    · exact ⟨r', hr', hname⟩
    · rcases List.mem_cons.mp hr' with rfl | hr'
      · -- A target that reuses itself would have had its name twice.
        have hd := hv.distinct
        rw [hfirst] at hd
        have hne := (List.pairwise_append.mp hd).2.2 r hr t List.mem_cons_self
        rw [hrr'.spec, ← htu.spec] at hne
        exact absurd (Path.equiv_refl _) hne
      · exact horder before u after hsplit name hk ⟨r', hr', hname⟩
  apart := by
    intro u hu u' hu' m hm
    obtain ⟨t, ht, htu⟩ := h.symm.exists_shuffled hu
    obtain ⟨t', ht', htu'⟩ := h.symm.exists_shuffled hu'
    rw [htu.spec]
    exact hv.apart t ht t' ht' m (htu'.owns hm)
  primary := by
    obtain ⟨t, ht, hk⟩ := hv.primary
    obtain ⟨u, hu, htu⟩ := h.exists_shuffled ht
    exact ⟨u, hu, htu.spec ▸ hk⟩

end ValidTargets

/-! ### What a target links -/

namespace Target

variable {before before' : List Target} {t u : Target} {inputs inputs' : List Path}

theorem Shuffled.takes (htu : t.Shuffled u) (h : Rearranged targets others) {o : Path}
    (ho : t.Takes mapper entryPoint targets o) : u.Takes mapper entryPoint others o := by
  rcases ho with ⟨s, hs, hso⟩ | ⟨name, hk, r, hr, hname, s, hs, hstem, hso⟩
  · exact Or.inl ⟨s, htu.sources.subset hs, hso⟩
  · obtain ⟨r', hr', hrr'⟩ := h.exists_shuffled hr
    exact Or.inr ⟨name, htu.spec ▸ hk, r', hr', hrr'.spec ▸ hname, s, hrr'.sources.subset hs,
      hstem, hso⟩

theorem Takes.mono {o : Path} (h : t.Takes mapper entryPoint before o) (hsub : before ⊆ targets) :
    t.Takes mapper entryPoint targets o :=
  h.imp_right fun ⟨name, hk, r, hr, hrest⟩ => ⟨name, hk, r, hsub hr, hrest⟩

theorem Takes.of_valid {after : List Target} {o : Path} (h : t.Takes mapper entryPoint targets o)
    (hv : ValidTargets mapper targets) (hsplit : targets = before ++ t :: after) :
    t.Takes mapper entryPoint before o := by
  refine h.imp_right ?_
  rintro ⟨name, hk, r, hr, hname, hrest⟩
  obtain ⟨r', hr', hname'⟩ := hv.reused before t after hsplit name hk
  have hmem : r' ∈ targets := by simp [hsplit, hr']
  obtain rfl := eq_of_pairwise_not_equiv hv.distinct hr hmem
    (Path.equiv_trans hname (Path.equiv_symm hname'))
  exact ⟨name, hk, r, hr', hname, hrest⟩

theorem hasObject_rightUnique : Relator.RightUnique mapper.HasObject := by
  rintro s o o' ⟨m, hm, rfl⟩ ⟨n, hn, rfl⟩
  rw [Except.ok.inj (hm.symm.trans hn)]

/-- What a target takes over does not hang on what else comes before it. -/
theorem Reuses.unique (hd : targets.Pairwise fun t u => ¬ t.spec.name ≈ u.spec.name)
    (hsub : before ⊆ targets) (hsub' : before' ⊆ targets) {reused reused' : List Path}
    (h : t.Reuses mapper entryPoint before reused)
    (h' : t.Reuses mapper entryPoint before' reused') : reused = reused' := by
  unfold Reuses at h h'
  cases hk : t.spec.kind with
  | primary =>
      simp only [hk] at h h'
      rw [h, h']
  | secondary name =>
      simp only [hk] at h h'
      obtain ⟨r, hr, hname, hreused⟩ := h
      obtain ⟨r', hr', hname', hreused'⟩ := h'
      obtain rfl := eq_of_pairwise_not_equiv hd (hsub hr) (hsub' hr')
        (Path.equiv_trans hname (Path.equiv_symm hname'))
      exact hasObject_rightUnique.forall₂ hreused hreused'

theorem Links.unique (hd : targets.Pairwise fun t u => ¬ t.spec.name ≈ u.spec.name)
    (hsub : before ⊆ targets) (hsub' : before' ⊆ targets)
    (h : t.Links mapper entryPoint before inputs)
    (h' : t.Links mapper entryPoint before' inputs') : inputs = inputs' := by
  obtain ⟨own, reused, hown, hreuses, rfl⟩ := h
  obtain ⟨own', reused', hown', hreuses', rfl⟩ := h'
  rw [hasObject_rightUnique.forall₂ hown hown', hreuses.unique hd hsub hsub' hreuses']

/-- All that a target takes is linked. -/
theorem Links.complete (hd : before.Pairwise fun t u => ¬ t.spec.name ≈ u.spec.name)
    (h : t.Links mapper entryPoint before inputs) {o : Path}
    (ho : t.Takes mapper entryPoint before o) : ∃ i ∈ inputs, i ≈ o := by
  obtain ⟨own, reused, hown, hreuses, rfl⟩ := h
  rw [distinctPaths_eq]
  apply exists_mem_firstSpellings
  rcases ho with ⟨s, hs, hso⟩ | ⟨name, hk, r, hr, hname, s, hs, hstem, hso⟩
  · obtain ⟨o', ho', hso'⟩ := forall₂_exists_right hown hs
    obtain rfl := hasObject_rightUnique hso hso'
    exact List.mem_append_left _ ho'
  · unfold Reuses at hreuses
    simp only [hk] at hreuses
    obtain ⟨r', hr', hname', hreused⟩ := hreuses
    obtain rfl := eq_of_pairwise_not_equiv hd hr hr'
      (Path.equiv_trans hname (Path.equiv_symm hname'))
    obtain ⟨o', ho', hso'⟩ := forall₂_exists_right hreused
      (List.mem_filter.mpr ⟨hs, decide_eq_true hstem⟩)
    obtain rfl := hasObject_rightUnique hso hso'
    exact List.mem_append_right _ ho'

end Target

/-! ### Plans of rearranged targets -/

namespace Plan

variable {p q : Plan}

theorem mem_of_linkEdge {name : Path} {l : LinkEdge} (h : p.linkEdge name = some l) :
    l ∈ p.linkEdges ∧ name ≈ l.output := by
  unfold linkEdge at h
  have hname : l.output ≈ name := by simpa using List.find?_some h
  exact ⟨List.mem_of_find?_eq_some h, Path.equiv_symm hname⟩

theorem exists_links_of_linkEdge {a : Assembly} (hc : a.Covers mapper entryPoint targets)
    (hp : a.finish targets = .ok p) {name : Path} {l : LinkEdge} (h : p.linkEdge name = some l) :
    ∃ before t after, targets = before ++ t :: after ∧ name ≈ t.spec.name ∧
      l.output = t.spec.name ∧ t.Links mapper entryPoint before l.inputs := by
  obtain ⟨-, first, -, rfl⟩ := Assembly.finish_cases hp
  obtain ⟨hl, hname⟩ := mem_of_linkEdge h
  obtain ⟨before, t, after, hsplit, houtput, hlinks⟩ := hc.exists_links hl
  exact ⟨before, t, after, hsplit, houtput ▸ hname, houtput, hlinks⟩

theorem linkEdge_of_links {a : Assembly} (hc : a.Covers mapper entryPoint targets)
    (hp : a.finish targets = .ok p) {before after : List Target} {t : Target}
    (hsplit : targets = before ++ t :: after) {name : Path} (hname : name ≈ t.spec.name) :
    ∃ l, p.linkEdge name = some l ∧ l.output = t.spec.name ∧
      t.Links mapper entryPoint before l.inputs := by
  obtain ⟨-, first, -, rfl⟩ := Assembly.finish_cases hp
  obtain ⟨l, hl, houtput, hlinks⟩ := hc.linked before t after hsplit
  exact ⟨l, linkEdge_eq_some hc.outputs_distinct hl (houtput ▸ hname), houtput, hlinks⟩

theorem within_of_rearranged (h : Rearranged targets others)
    (hp : assemble targets mapper entryPoint = .ok p)
    (hq : assemble others mapper entryPoint = .ok q) : p.Within q := by
  have hv := validTargets_of_assemble hq
  obtain ⟨a, hc, hfinish⟩ := assemble_covers hp
  obtain ⟨b, hc', hfinish'⟩ := assemble_covers hq
  constructor
  · obtain ⟨-, first, -, rfl⟩ := Assembly.finish_cases hfinish
    obtain ⟨-, first', -, rfl⟩ := Assembly.finish_cases hfinish'
    intro e he
    obtain ⟨t, ht, hown⟩ := hc.asked e he
    obtain ⟨u, hu, htu⟩ := h.exists_shuffled ht
    exact hc'.compiled u hu _ (htu.owns hown)
  · intro name l hl
    obtain ⟨before, t, after, hsplit, hname, houtput, hlinks⟩ :=
      exists_links_of_linkEdge hc hfinish hl
    obtain ⟨u, hu, htu⟩ := h.exists_shuffled (t := t) (by simp [hsplit])
    obtain ⟨before', after', hsplit'⟩ := List.mem_iff_append.mp hu
    obtain ⟨k, hk, houtput', hlinks'⟩ := linkEdge_of_links hc' hfinish' hsplit' (htu.spec ▸ hname)
    refine ⟨k, hk, by rw [houtput', houtput, htu.spec], fun i hi => ?_⟩
    have htakes : u.Takes mapper entryPoint before' i :=
      (htu.takes h ((hlinks.takes hi).mono (by simp [hsplit]))).of_valid hv hsplit'
    exact hlinks'.complete (hv.distinct.sublist (by simp [hsplit'])) htakes

/-- If only the targets have moved, every output is linked from the same list. -/
theorem linkEdge_of_perm (h : targets.Perm others)
    (hp : assemble targets mapper entryPoint = .ok p)
    (hq : assemble others mapper entryPoint = .ok q) {name : Path} {l : LinkEdge}
    (hl : p.linkEdge name = some l) : q.linkEdge name = some l := by
  have hv := validTargets_of_assemble hq
  obtain ⟨a, hc, hfinish⟩ := assemble_covers hp
  obtain ⟨b, hc', hfinish'⟩ := assemble_covers hq
  obtain ⟨before, t, after, hsplit, hname, houtput, hlinks⟩ :=
    exists_links_of_linkEdge hc hfinish hl
  have ht : t ∈ others := h.subset (by simp [hsplit])
  obtain ⟨before', after', hsplit'⟩ := List.mem_iff_append.mp ht
  obtain ⟨k, hk, houtput', hlinks'⟩ := linkEdge_of_links hc' hfinish' hsplit' hname
  have hbefore : before ⊆ others := fun u hu => h.subset (by simp [hsplit, hu])
  have hinputs := hlinks.unique hv.distinct hbefore (by simp [hsplit']) hlinks'
  rw [hk, Option.some.injEq]
  cases k
  cases l
  simp_all

/-- **The order of targets and sources does not count.**  Targets and the same ones rearranged, in
both of which a target stands behind the one that it reuses, have a plan or have none.  Their plans
compile the same sources to the same objects and link every output from the same objects; and if
only the targets have moved, from the same list. -/
theorem assemble_rearranged (mapper : ObjectMapper) (entryPoint : Text)
    (h : Rearranged targets others) (htargets : ReusesInOrder targets)
    (hothers : ReusesInOrder others) :
    ((∃ p, assemble targets mapper entryPoint = .ok p) ↔
      ∃ q, assemble others mapper entryPoint = .ok q) ∧
    ∀ p q, assemble targets mapper entryPoint = .ok p → assemble others mapper entryPoint = .ok q →
      p.Within q ∧ q.Within p ∧
        (targets.Perm others → ∀ name, p.linkEdge name = q.linkEdge name) := by
  refine ⟨⟨?_, ?_⟩, fun p q hp hq => ⟨within_of_rearranged h hp hq,
    within_of_rearranged h.symm hq hp, fun hperm name => Option.ext fun l => ?_⟩⟩
  · rintro ⟨p, hp⟩
    exact ((validTargets_of_assemble hp).rearrange h hothers).exists_assemble
  · rintro ⟨q, hq⟩
    exact ((validTargets_of_assemble hq).rearrange h.symm htargets).exists_assemble
  · exact ⟨linkEdge_of_perm hperm hp hq, linkEdge_of_perm hperm.symm hq hp⟩

end Plan

/-! ### Two programs that share a source -/

/-- Two programs that share a source, and a harness of the first. -/
def sharingTargets : List Target := [
  ⟨⟨"app", "src", .primary⟩, [⟨"/p/src/a.cc"⟩, ⟨"/p/src/main.cc"⟩]⟩,
  ⟨⟨"tool", "src", .primary⟩, [⟨"/p/src//a.cc"⟩, ⟨"/p/tool/main.cc"⟩]⟩,
  ⟨⟨"tests/run", "tests", .secondary "app"⟩, [⟨"/p/tests/t.cc"⟩]⟩]

/-- The same with the second program first, and its sources turned round. -/
def turnedTargets : List Target := [
  ⟨⟨"tool", "src", .primary⟩, [⟨"/p/tool/main.cc"⟩, ⟨"/p/src//a.cc"⟩]⟩,
  ⟨⟨"app", "src", .primary⟩, [⟨"/p/src/a.cc"⟩, ⟨"/p/src/main.cc"⟩]⟩,
  ⟨⟨"tests/run", "tests", .secondary "app"⟩, [⟨"/p/tests/t.cc"⟩]⟩]

/-- The plan of the programs in the first order. -/
def sharingPlan : Plan where
  compileEdges := [⟨"src/a.cc", "src/a.o"⟩, ⟨"src/main.cc", "src/main.o"⟩,
    ⟨"tool/main.cc", "tool/main.o"⟩, ⟨"tests/t.cc", "tests/t.o"⟩]
  linkEdges := [⟨"app", ["src/a.o", "src/main.o"]⟩, ⟨"tool", ["src//a.o", "tool/main.o"]⟩,
    ⟨"tests/run", ["tests/t.o", "src/a.o"]⟩]
  defaultTarget := "app"

/-- The plan in the second order: the shared source is spelled otherwise, and another program is
built by default. -/
def turnedPlan : Plan where
  compileEdges := [⟨"tool/main.cc", "tool/main.o"⟩, ⟨"src//a.cc", "src//a.o"⟩,
    ⟨"src/main.cc", "src/main.o"⟩, ⟨"tests/t.cc", "tests/t.o"⟩]
  linkEdges := [⟨"tool", ["tool/main.o", "src//a.o"]⟩, ⟨"app", ["src/a.o", "src/main.o"]⟩,
    ⟨"tests/run", ["tests/t.o", "src/a.o"]⟩]
  defaultTarget := "tool"

theorem assemble_sharingTargets :
    Plan.assemble sharingTargets harnessMapper "main" = .ok sharingPlan := rfl

theorem assemble_turnedTargets :
    Plan.assemble turnedTargets harnessMapper "main" = .ok turnedPlan := rfl

theorem rearranged_sharingTargets : Rearranged sharingTargets turnedTargets := by
  refine ⟨[turnedTargets[1], turnedTargets[0], turnedTargets[2]], ?_, List.Perm.swap _ _ _⟩
  refine .cons ⟨rfl, List.Perm.refl _⟩ (.cons ⟨rfl, List.Perm.swap _ _ _⟩ (.cons ⟨rfl, ?_⟩ .nil))
  exact List.Perm.refl _

/-- The plans of the two orders are within each other. -/
theorem sharingPlan_within_turnedPlan :
    Rearranged sharingTargets turnedTargets ∧ ReusesInOrder sharingTargets ∧
      ReusesInOrder turnedTargets ∧
      Plan.assemble sharingTargets harnessMapper "main" = .ok sharingPlan ∧
      Plan.assemble turnedTargets harnessMapper "main" = .ok turnedPlan ∧
      sharingPlan.Within turnedPlan ∧ turnedPlan.Within sharingPlan := by
  have hfirst := (validTargets_of_assemble assemble_sharingTargets).reusesInOrder
  have hsecond := (validTargets_of_assemble assemble_turnedTargets).reusesInOrder
  obtain ⟨hthere, hback, -⟩ := (Plan.assemble_rearranged harnessMapper "main"
    rearranged_sharingTargets hfirst hsecond).2 _ _ assemble_sharingTargets assemble_turnedTargets
  exact ⟨rearranged_sharingTargets, hfirst, hsecond, assemble_sharingTargets,
    assemble_turnedTargets, hthere, hback⟩

end NinjaPlan
