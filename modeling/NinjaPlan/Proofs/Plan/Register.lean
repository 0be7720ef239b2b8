import Mathlib.Data.List.Forall2
import NinjaPlan.Plan.Assemble
import NinjaPlan.Plan.Valid

/-! # Registering sources

`registerSources` maps the sources of one target in order and grows the compile edges.  A
success is described by `Registered`: which objects come out, and how the edges after it relate
to those before it (`registerSources_registered`).  Conversely sources that have objects, and
whose objects agree with each other and with the edges that are there, are always registered
(`registerSources_complete`). -/

namespace NinjaPlan

/-- No object is made by two edges. -/
def ObjectsDistinct (edges : List CompileEdge) : Prop :=
  edges.Pairwise fun e f => ¬ e.object ≈ f.object

/-- The edge compiles the mapped source, as far as paths are compared. -/
def CompileEdge.Compiles (e : CompileEdge) (m : MappedSource) : Prop :=
  e.source ≈ m.source ∧ e.object ≈ m.object

def ObjectMapper.HasObject (mapper : ObjectMapper) (s : SourceFile) (o : Path) : Prop :=
  ∃ m, mapper.map s = .ok m ∧ m.object = o

def OwnedObject.IsOf (mapper : ObjectMapper) (entryPoint : Text) (s : SourceFile)
    (o : OwnedObject) : Prop :=
  mapper.HasObject s o.path ∧ o.isEntryPoint = decide (s.stem = some entryPoint)

/-! ### Lists -/

theorem forall₂_exists_right {α β : Type} {R : α → β → Prop} {as : List α} {bs : List β}
    (h : List.Forall₂ R as bs) {a : α} (ha : a ∈ as) : ∃ b ∈ bs, R a b := by
  induction h with
  | nil => cases ha
  | cons hab _ ih =>
      rcases List.mem_cons.mp ha with rfl | ha
      · exact ⟨_, List.mem_cons_self, hab⟩
      · obtain ⟨b, hb, hr⟩ := ih ha
        exact ⟨b, List.mem_cons_of_mem _ hb, hr⟩

theorem forall₂_exists_left {α β : Type} {R : α → β → Prop} {as : List α} {bs : List β}
    (h : List.Forall₂ R as bs) {b : β} (hb : b ∈ bs) : ∃ a ∈ as, R a b :=
  forall₂_exists_right h.flip hb

/-- If no two elements have one path, those of one path are equal. -/
theorem eq_of_pairwise_not_equiv {α : Type} {path : α → Path} {xs : List α}
    (hd : xs.Pairwise fun x y => ¬ path x ≈ path y) {x y : α} (hx : x ∈ xs) (hy : y ∈ xs)
    (h : path x ≈ path y) : x = y := by
  induction xs with
  | nil => cases hx
  | cons z xs ih =>
      obtain ⟨hz, hd⟩ := List.pairwise_cons.mp hd
      rcases List.mem_cons.mp hx with rfl | hx'
      · rcases List.mem_cons.mp hy with rfl | hy'
        · rfl
        · exact absurd h (hz y hy')
      · rcases List.mem_cons.mp hy with rfl | hy'
        · exact absurd (Path.equiv_symm h) (hz x hx')
        · exact ih hd hx' hy'

theorem ObjectsDistinct.eq_of_equiv {edges : List CompileEdge} (hd : ObjectsDistinct edges)
    {e f : CompileEdge} (he : e ∈ edges) (hf : f ∈ edges) (h : e.object ≈ f.object) : e = f :=
  eq_of_pairwise_not_equiv hd he hf h

section register

variable {mapper : ObjectMapper} {entryPoint : Text} {edges edges' : List CompileEdge}

/-! ### One source -/

theorem registerEdge_cases {m : MappedSource} (h : registerEdge edges m = .ok edges') :
    (edges' = edges ++ [⟨m.source, m.object⟩] ∧ ∀ e ∈ edges, ¬ e.object ≈ m.object) ∨
      (edges' = edges ∧ ∃ e ∈ edges, e.Compiles m) := by
  unfold registerEdge at h
  cases hf : edges.find? fun e => decide (e.object ≈ m.object) with
  | none =>
      simp only [hf, Except.ok.injEq] at h
      refine Or.inl ⟨h.symm, ?_⟩
      intro e he
      simpa using List.find?_eq_none.mp hf e he
  | some e =>
      simp only [hf] at h
      by_cases hs : e.source ≈ m.source
      · rw [if_pos hs] at h
        have ho : e.object ≈ m.object := by simpa using List.find?_some hf
        exact Or.inr ⟨(Except.ok.inj h).symm, e, List.mem_of_find?_eq_some hf, hs, ho⟩
      · rw [if_neg hs] at h
        cases h

theorem registerEdge_complete {m : MappedSource}
    (h : ∀ e ∈ edges, e.object ≈ m.object → e.source ≈ m.source) :
    ∃ edges', registerEdge edges m = .ok edges' := by
  unfold registerEdge
  cases hf : edges.find? fun e => decide (e.object ≈ m.object) with
  | none => exact ⟨_, rfl⟩
  | some e =>
      have ho : e.object ≈ m.object := by simpa using List.find?_some hf
      exact ⟨edges, if_pos (h e (List.mem_of_find?_eq_some hf) ho)⟩

/-! ### All sources of a target -/

theorem registerSources_cons {s : SourceFile} {rest : List SourceFile}
    {objects : List OwnedObject}
    (h : registerSources mapper entryPoint edges (s :: rest) = .ok (edges', objects)) :
    ∃ m middle others, mapper.map s = .ok m ∧ registerEdge edges m = .ok middle ∧
      registerSources mapper entryPoint middle rest = .ok (edges', others) ∧
      objects = ⟨m.object, s.stem = some entryPoint⟩ :: others := by
  rw [registerSources] at h
  cases hm : mapper.map s with
  | error e => simp [hm] at h
  | ok m =>
      cases hr : registerEdge edges m with
      | error e => simp [hm, hr] at h
      | ok middle =>
          cases hrest : registerSources mapper entryPoint middle rest with
          | error e => simp [hm, hr, hrest] at h
          | ok r =>
              obtain ⟨last, others⟩ := r
              simp only [hm, hr, hrest, Except.ok.injEq, Prod.mk.injEq] at h
              obtain ⟨rfl, rfl⟩ := h
              exact ⟨m, middle, others, rfl, hr, hrest, rfl⟩

/-- What registering the sources of a target does to the edges, and the objects it gives. -/
structure Registered (mapper : ObjectMapper) (entryPoint : Text) (sources : List SourceFile)
    (edges edges' : List CompileEdge) (objects : List OwnedObject) : Prop where
  /-- The objects are those of the sources, in order. -/
  objects_of : List.Forall₂ (OwnedObject.IsOf mapper entryPoint) sources objects
  /-- Edges are only added. -/
  grows : edges <+: edges'
  /-- Every source is compiled. -/
  compiled : ∀ s ∈ sources, ∀ m, mapper.map s = .ok m → ∃ e ∈ edges', e.Compiles m
  /-- Every new edge is that of a source. -/
  asked : ∀ e ∈ edges', e ∈ edges ∨ ∃ s ∈ sources, mapper.map s = .ok ⟨e.source, e.object⟩
  /-- No object gets a second edge. -/
  distinct : ObjectsDistinct edges → ObjectsDistinct edges'

theorem registerEdge_registered {s : SourceFile} {m : MappedSource}
    (hm : mapper.map s = .ok m) (h : registerEdge edges m = .ok edges') :
    Registered mapper entryPoint [s] edges edges' [⟨m.object, s.stem = some entryPoint⟩] := by
  have hof : List.Forall₂ (OwnedObject.IsOf mapper entryPoint) [s]
      [⟨m.object, s.stem = some entryPoint⟩] :=
    List.Forall₂.cons ⟨⟨m, hm, rfl⟩, rfl⟩ List.Forall₂.nil
  have honly : ∀ n, mapper.map s = .ok n → n = m := by
    intro n hn
    rw [hm] at hn
    exact (Except.ok.inj hn).symm
  rcases registerEdge_cases h with ⟨rfl, hnew⟩ | ⟨rfl, e, he, hc⟩
  · refine ⟨hof, List.prefix_append _ _, ?_, ?_, ?_⟩
    · simp only [List.mem_singleton, forall_eq]
      intro n hn
      obtain rfl := honly n hn
      exact ⟨⟨n.source, n.object⟩, by simp, Path.equiv_refl _, Path.equiv_refl _⟩
    · intro e he
      rcases List.mem_append.mp he with he | he
      · exact Or.inl he
      · obtain rfl := List.mem_singleton.mp he
        exact Or.inr ⟨s, by simp, hm⟩
    · intro hd
      refine List.pairwise_append.mpr ⟨hd, List.pairwise_singleton _ _, ?_⟩
      intro e he f hf
      obtain rfl := List.mem_singleton.mp hf
      exact hnew e he
  · refine ⟨hof, List.prefix_rfl, ?_, fun e he => Or.inl he, id⟩
    simp only [List.mem_singleton, forall_eq]
    intro n hn
    obtain rfl := honly n hn
    exact ⟨e, he, hc⟩

theorem Registered.append {first rest : List SourceFile} {middle : List CompileEdge}
    {os os' : List OwnedObject} (h : Registered mapper entryPoint first edges middle os)
    (h' : Registered mapper entryPoint rest middle edges' os') :
    Registered mapper entryPoint (first ++ rest) edges edges' (os ++ os') := by
  refine ⟨List.rel_append h.objects_of h'.objects_of, h.grows.trans h'.grows, ?_, ?_,
    fun hd => h'.distinct (h.distinct hd)⟩
  · intro s hs m hm
    rcases List.mem_append.mp hs with hs | hs
    · obtain ⟨e, he, hc⟩ := h.compiled s hs m hm
      exact ⟨e, h'.grows.subset he, hc⟩
    · exact h'.compiled s hs m hm
  · intro e he
    rcases h'.asked e he with he | ⟨s, hs, hm⟩
    · rcases h.asked e he with he | ⟨s, hs, hm⟩
      · exact Or.inl he
      · exact Or.inr ⟨s, List.mem_append_left _ hs, hm⟩
    · exact Or.inr ⟨s, List.mem_append_right _ hs, hm⟩

theorem registerSources_registered {sources : List SourceFile} {objects : List OwnedObject}
    (h : registerSources mapper entryPoint edges sources = .ok (edges', objects)) :
    Registered mapper entryPoint sources edges edges' objects := by
  induction sources generalizing edges objects with
  | nil =>
      simp only [registerSources, Except.ok.injEq, Prod.mk.injEq] at h
      obtain ⟨rfl, rfl⟩ := h
      exact ⟨List.Forall₂.nil, List.prefix_rfl, by simp, fun e he => Or.inl he, id⟩
  | cons s rest ih =>
      obtain ⟨m, middle, others, hm, hr, hrest, rfl⟩ := registerSources_cons h
      exact (registerEdge_registered hm hr).append (ih hrest)

/-- Sources that have objects are registered, if whatever has one object has one source. -/
theorem registerSources_complete {sources : List SourceFile}
    (hmap : ∀ s ∈ sources, ∃ m, mapper.map s = .ok m)
    (hedge : ∀ e ∈ edges, ∀ s ∈ sources, ∀ m, mapper.map s = .ok m → e.object ≈ m.object →
      e.source ≈ m.source)
    (hinj : ∀ s ∈ sources, ∀ u ∈ sources, ∀ m n, mapper.map s = .ok m → mapper.map u = .ok n →
      m.object ≈ n.object → m.source ≈ n.source) :
    ∃ r, registerSources mapper entryPoint edges sources = .ok r := by
  induction sources generalizing edges with
  | nil => exact ⟨_, rfl⟩
  | cons s rest ih =>
      obtain ⟨m, hm⟩ := hmap s List.mem_cons_self
      obtain ⟨middle, hr⟩ : ∃ middle, registerEdge edges m = .ok middle :=
        registerEdge_complete fun e he => hedge e he s List.mem_cons_self m hm
      have hreg : Registered mapper entryPoint [s] edges middle _ := registerEdge_registered hm hr
      have hmiddle : ∀ e ∈ middle, ∀ u ∈ rest, ∀ n, mapper.map u = .ok n →
          e.object ≈ n.object → e.source ≈ n.source := by
        intro e he u hu n hn ho
        rcases hreg.asked e he with he | ⟨v, hv, hmv⟩
        · exact hedge e he u (List.mem_cons_of_mem _ hu) n hn ho
        · obtain rfl := List.mem_singleton.mp hv
          exact hinj v List.mem_cons_self u (List.mem_cons_of_mem _ hu) _ n hmv hn ho
      obtain ⟨⟨last, others⟩, hrest⟩ := ih (fun u hu => hmap u (List.mem_cons_of_mem _ hu)) hmiddle
        (fun u hu v hv => hinj u (List.mem_cons_of_mem _ hu) v (List.mem_cons_of_mem _ hv))
      exact ⟨_, by rw [registerSources, hm]; simp only [hr, hrest]; rfl⟩

end register

end NinjaPlan
