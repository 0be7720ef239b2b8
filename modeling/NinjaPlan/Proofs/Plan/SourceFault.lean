import NinjaPlan.Proofs.Plan.Register

/-! # Faults of sources

Sources are registered one after the other, each against those before it.  Those before it are
`SoundSources`: all of them have objects, and those of one object are one source.  A source has a
`SourceFault` if it has no object, or if the first source that has made its object
(`MadeFirst`) is another one.

Registering fails exactly at the first source with a fault and with its error
(`registerSources_eq_error_iff`).  What it needs to know of the edges is that they hold for every
object the source that made it first (`Registers`), which registering keeps. -/

namespace NinjaPlan

/-- The object was made first by the mapped source, which is that of one of the sources. -/
def MadeFirst (mapper : ObjectMapper) (sources : List SourceFile) (object : Path)
    (first : MappedSource) : Prop :=
  ∃ before s after, sources = before ++ s :: after ∧ mapper.map s = .ok first ∧
    first.object ≈ object ∧ ∀ u ∈ before, ∀ m, mapper.map u = .ok m → ¬ m.object ≈ object

/-- Sources in which there is nothing wrong. -/
structure SoundSources (mapper : ObjectMapper) (sources : List SourceFile) : Prop where
  /-- Every source has an object. -/
  mapped : ∀ s ∈ sources, ∃ m, mapper.map s = .ok m
  /-- An object comes from one source. -/
  agree : ∀ s ∈ sources, ∀ u ∈ sources, ∀ m n, mapper.map s = .ok m → mapper.map u = .ok n →
    m.object ≈ n.object → m.source ≈ n.source

/-- What can be wrong with a source behind others. -/
inductive SourceFault (mapper : ObjectMapper) (earlier : List SourceFile) (s : SourceFile) :
    PlanError → Prop where
  /-- The source has no object. -/
  | unmapped {cause : MapError} : mapper.map s = .error cause →
      SourceFault mapper earlier s (.unmapped cause)
  /-- Another source has made the object first. -/
  | collides {m first : MappedSource} : mapper.map s = .ok m →
      MadeFirst mapper earlier m.object first → ¬ first.source ≈ m.source →
      SourceFault mapper earlier s (.duplicateOutput m.object first.source m.source)

/-- The first of the sources with a fault has this one. -/
def FirstSourceFault (mapper : ObjectMapper) (earlier sources : List SourceFile) (e : PlanError) :
    Prop :=
  ∃ before s after, sources = before ++ s :: after ∧ SoundSources mapper (earlier ++ before) ∧
    SourceFault mapper (earlier ++ before) s e

/-- A place in a list is its first one or a place behind it. -/
theorem exists_split_cons_iff {α : Type} {P : List α → α → Prop} {x : α} {xs : List α} :
    (∃ before y after, x :: xs = before ++ y :: after ∧ P before y) ↔
      P [] x ∨ ∃ before y after, xs = before ++ y :: after ∧ P (x :: before) y := by
  constructor
  · rintro ⟨before, y, after, hsplit, hP⟩
    cases before with
    | nil =>
        obtain ⟨rfl, -⟩ := List.cons.inj hsplit
        exact Or.inl hP
    | cons z before =>
        obtain ⟨rfl, hrest⟩ := List.cons.inj hsplit
        exact Or.inr ⟨before, y, after, hrest, hP⟩
  · rintro (hP | ⟨before, y, after, rfl, hP⟩)
    · exact ⟨[], x, xs, rfl, hP⟩
    · exact ⟨x :: before, y, after, rfl, hP⟩

variable {mapper : ObjectMapper} {entryPoint : Text} {edges edges' : List CompileEdge}
  {earlier sources : List SourceFile} {s : SourceFile} {m first : MappedSource} {e : PlanError}
  {object : Path}

/-! ### The first source of an object -/

def makes (mapper : ObjectMapper) (object : Path) (s : SourceFile) : Option MappedSource :=
  match mapper.map s with
  | .ok m => if m.object ≈ object then some m else none
  | .error _ => none

def firstMade (mapper : ObjectMapper) (sources : List SourceFile) (object : Path) :
    Option MappedSource :=
  sources.findSome? (makes mapper object)

theorem makes_eq_some_iff :
    makes mapper object s = some m ↔ mapper.map s = .ok m ∧ m.object ≈ object := by
  unfold makes
  cases mapper.map s with
  | error cause => simp
  | ok n =>
      by_cases hn : n.object ≈ object
      · simp only [if_pos hn, Option.some.injEq, Except.ok.injEq]
        exact ⟨fun h => ⟨h, h ▸ hn⟩, And.left⟩
      · simp only [if_neg hn, Except.ok.injEq, reduceCtorEq, false_iff]
        rintro ⟨rfl, hm⟩
        exact hn hm

theorem makes_eq_none_iff :
    makes mapper object s = none ↔ ∀ m, mapper.map s = .ok m → ¬ m.object ≈ object := by
  rw [Option.eq_none_iff_forall_ne_some]
  simp only [ne_eq, makes_eq_some_iff, not_and]

theorem firstMade_eq_some_iff :
    firstMade mapper sources object = some first ↔ MadeFirst mapper sources object first := by
  simp only [firstMade, List.findSome?_eq_some_iff, makes_eq_some_iff, makes_eq_none_iff, and_assoc,
    MadeFirst]

theorem firstMade_eq_none_iff : firstMade mapper sources object = none ↔
    ∀ s ∈ sources, ∀ m, mapper.map s = .ok m → ¬ m.object ≈ object := by
  simp only [firstMade, List.findSome?_eq_none_iff, makes_eq_none_iff]

theorem MadeFirst.exists_source (h : MadeFirst mapper sources object first) :
    ∃ s ∈ sources, mapper.map s = .ok first ∧ first.object ≈ object := by
  obtain ⟨before, s, after, rfl, hs, hobject, -⟩ := h
  exact ⟨s, by simp, hs, hobject⟩

/-! ### Sound sources -/

theorem SoundSources.nil : SoundSources mapper [] := ⟨by simp, by simp⟩

theorem SoundSources.not_fault {more : List SourceFile}
    (h : SoundSources mapper (earlier ++ s :: more)) : ¬ SourceFault mapper earlier s e := by
  rintro (hs | ⟨hm, hfirst, hne⟩)
  · obtain ⟨m, hm⟩ := h.mapped s (by simp)
    rw [hs] at hm
    cases hm
  · obtain ⟨u, hu, hfirst, hobject⟩ := hfirst.exists_source
    exact hne (h.agree u (by simp [hu]) s (by simp) _ _ hfirst hm hobject)

theorem SoundSources.concat (h : SoundSources mapper earlier)
    (hs : ∀ e, ¬ SourceFault mapper earlier s e) : SoundSources mapper (earlier ++ [s]) := by
  obtain ⟨m, hm⟩ : ∃ m, mapper.map s = .ok m := by
    cases hm : mapper.map s with
    | error cause => exact absurd (.unmapped hm) (hs _)
    | ok m => exact ⟨m, rfl⟩
  -- The source of the object that was there before is the one that has made it first.
  have hagree : ∀ u ∈ earlier, ∀ n, mapper.map u = .ok n → n.object ≈ m.object →
      n.source ≈ m.source := by
    intro u hu n hn hobject
    cases hf : firstMade mapper earlier m.object with
    | none => exact absurd hobject (firstMade_eq_none_iff.mp hf u hu n hn)
    | some first =>
        have hfirst := firstMade_eq_some_iff.mp hf
        have hsource : first.source ≈ m.source :=
          Decidable.byContradiction fun hne => hs _ (.collides hm hfirst hne)
        obtain ⟨v, hv, hvfirst, hvobject⟩ := hfirst.exists_source
        exact Path.equiv_trans (h.agree u hu v hv n first hn hvfirst
          (Path.equiv_trans hobject (Path.equiv_symm hvobject))) hsource
  constructor
  · intro u hu
    rcases List.mem_append.mp hu with hu | hu
    · exact h.mapped u hu
    · obtain rfl := List.mem_singleton.mp hu
      exact ⟨m, hm⟩
  · intro u hu v hv n k hn hk hobject
    rcases List.mem_append.mp hu with hu | hu <;> rcases List.mem_append.mp hv with hv | hv
    · exact h.agree u hu v hv n k hn hk hobject
    · rw [List.mem_singleton.mp hv, hm] at hk
      obtain rfl := Except.ok.inj hk
      exact hagree u hu n hn hobject
    · rw [List.mem_singleton.mp hu, hm] at hn
      obtain rfl := Except.ok.inj hn
      exact Path.equiv_symm (hagree v hv k hk (Path.equiv_symm hobject))
    · rw [List.mem_singleton.mp hu] at hn
      rw [List.mem_singleton.mp hv, hn] at hk
      rw [Except.ok.inj hk]

/-! ### Registering -/

/-- The edges hold for every object the source that made it first. -/
def Registers (mapper : ObjectMapper) (sources : List SourceFile) (edges : List CompileEdge) :
    Prop :=
  ∀ object : Path, (edges.find? fun e => decide (e.object ≈ object)) =
    (firstMade mapper sources object).map fun m => ⟨m.source, m.object⟩

theorem registers_nil : Registers mapper [] [] := fun _ => rfl

theorem Registers.registerEdge_eq_error_iff (h : Registers mapper earlier edges) :
    registerEdge edges m = .error e ↔ ∃ first, MadeFirst mapper earlier m.object first ∧
      ¬ first.source ≈ m.source ∧ e = .duplicateOutput m.object first.source m.source := by
  simp only [← firstMade_eq_some_iff, registerEdge, h m.object]
  cases firstMade mapper earlier m.object with
  | none => simp
  | some first =>
      by_cases hs : first.source ≈ m.source
      · simp [if_pos hs, hs]
      · simp only [Option.map_some, if_neg hs, Except.error.injEq, Option.some.injEq]
        constructor
        · rintro rfl
          exact ⟨first, rfl, hs, rfl⟩
        · rintro ⟨_, rfl, -, rfl⟩
          rfl

theorem Registers.sourceFault_iff (h : Registers mapper earlier edges) :
    SourceFault mapper earlier s e ↔
      (∃ cause, mapper.map s = .error cause ∧ e = .unmapped cause) ∨
        ∃ m, mapper.map s = .ok m ∧ registerEdge edges m = .error e := by
  constructor
  · rintro (hs | ⟨hm, hfirst, hne⟩)
    · exact Or.inl ⟨_, hs, rfl⟩
    · exact Or.inr ⟨_, hm, h.registerEdge_eq_error_iff.mpr ⟨_, hfirst, hne, rfl⟩⟩
  · rintro (⟨cause, hs, rfl⟩ | ⟨m, hm, hr⟩)
    · exact .unmapped hs
    · obtain ⟨first, hfirst, hne, rfl⟩ := h.registerEdge_eq_error_iff.mp hr
      exact .collides hm hfirst hne

theorem Registers.not_fault (h : Registers mapper earlier edges) (hm : mapper.map s = .ok m)
    (hr : registerEdge edges m = .ok edges') (e : PlanError) :
    ¬ SourceFault mapper earlier s e := by
  rw [h.sourceFault_iff]
  rintro (⟨cause, hs, -⟩ | ⟨n, hn, hs⟩)
  · rw [hm] at hs
    cases hs
  · obtain rfl := Except.ok.inj (hm.symm.trans hn)
    rw [hr] at hs
    cases hs

theorem Registers.exists_registerEdge (h : Registers mapper earlier edges)
    (hs : ∀ e, ¬ SourceFault mapper earlier s e) :
    ∃ m edges', mapper.map s = .ok m ∧ registerEdge edges m = .ok edges' := by
  simp only [h.sourceFault_iff, not_or, not_exists, not_and] at hs
  cases hm : mapper.map s with
  | error cause => exact absurd rfl ((hs _).1 cause hm)
  | ok m =>
      cases hr : registerEdge edges m with
      | error e => exact absurd hr ((hs e).2 m hm)
      | ok edges' => exact ⟨m, edges', rfl, hr⟩

theorem Registers.concat (h : Registers mapper earlier edges) (hm : mapper.map s = .ok m)
    (hr : registerEdge edges m = .ok edges') : Registers mapper (earlier ++ [s]) edges' := by
  intro object
  have hlast : firstMade mapper (earlier ++ [s]) object =
      (firstMade mapper earlier object).or (if m.object ≈ object then some m else none) := by
    rw [firstMade, List.findSome?_append, List.findSome?_singleton]
    simp only [makes, hm]
    rfl
  rw [hlast, Option.map_or, ← h object]
  rcases registerEdge_cases hr with ⟨rfl, -⟩ | ⟨rfl, e, he, -, heo⟩
  · rw [List.find?_append, List.find?_singleton]
    by_cases hobject : m.object ≈ object <;> simp [hobject]
  · -- The object has its edge already, so the source is not the first one.
    by_cases hobject : m.object ≈ object
    · have hsome : (edges'.find? fun e => decide (e.object ≈ object)).isSome := by
        rw [List.find?_isSome]
        exact ⟨e, he, decide_eq_true (Path.equiv_trans heo hobject)⟩
      rw [Option.or_of_isSome hsome]
    · simp [hobject]

theorem registerSources_cons_eq_error_iff {rest : List SourceFile}
    (h : Registers mapper earlier edges) :
    registerSources mapper entryPoint edges (s :: rest) = .error e ↔
      SourceFault mapper earlier s e ∨ ∃ m middle, mapper.map s = .ok m ∧
        registerEdge edges m = .ok middle ∧
        registerSources mapper entryPoint middle rest = .error e := by
  rw [h.sourceFault_iff, registerSources]
  cases hm : mapper.map s with
  | error cause => simp [eq_comm]
  | ok m =>
      cases hr : registerEdge edges m with
      | error e' => simp [hr]
      | ok middle =>
          cases hrest : registerSources mapper entryPoint middle rest <;> simp [hr, hrest]

theorem registerSources_eq_error_iff (h : Registers mapper earlier edges)
    (hsound : SoundSources mapper earlier) :
    registerSources mapper entryPoint edges sources = .error e ↔
      FirstSourceFault mapper earlier sources e := by
  induction sources generalizing edges earlier with
  | nil => simp [registerSources, FirstSourceFault]
  | cons s rest ih =>
      rw [registerSources_cons_eq_error_iff h, FirstSourceFault, exists_split_cons_iff,
        List.append_nil]
      have hbehind : (∃ before u after, rest = before ++ u :: after ∧
          SoundSources mapper (earlier ++ s :: before) ∧
          SourceFault mapper (earlier ++ s :: before) u e) ↔
          FirstSourceFault mapper (earlier ++ [s]) rest e := by
        simp [FirstSourceFault]
      rw [hbehind]
      refine or_congr ⟨fun hs => ⟨hsound, hs⟩, And.right⟩ ⟨?_, fun hfault => ?_⟩
      · rintro ⟨m, middle, hm, hr, hrest⟩
        exact (ih (h.concat hm hr) (hsound.concat (h.not_fault hm hr))).mp hrest
      · obtain ⟨before, u, after, -, hbefore, -⟩ := hbehind.mpr hfault
        obtain ⟨m, middle, hm, hr⟩ := h.exists_registerEdge fun e => hbefore.not_fault
        exact ⟨m, middle, hm, hr,
          (ih (h.concat hm hr) (hsound.concat (h.not_fault hm hr))).mpr hfault⟩

theorem registerSources_sound {objects : List OwnedObject} (h : Registers mapper earlier edges)
    (hsound : SoundSources mapper earlier)
    (hr : registerSources mapper entryPoint edges sources = .ok (edges', objects)) :
    SoundSources mapper (earlier ++ sources) ∧ Registers mapper (earlier ++ sources) edges' := by
  induction sources generalizing edges earlier objects with
  | nil =>
      obtain ⟨rfl, -⟩ := Prod.mk.inj (Except.ok.inj hr)
      simpa using ⟨hsound, h⟩
  | cons s rest ih =>
      obtain ⟨m, middle, others, hm, hedge, hrest, -⟩ := registerSources_cons hr
      simpa using ih (h.concat hm hedge) (hsound.concat (h.not_fault hm hedge)) hrest

theorem exists_registerSources_iff (h : Registers mapper earlier edges)
    (hsound : SoundSources mapper earlier) :
    (∃ r, registerSources mapper entryPoint edges sources = .ok r) ↔
      SoundSources mapper (earlier ++ sources) := by
  constructor
  · rintro ⟨⟨edges', objects⟩, hr⟩
    exact (registerSources_sound h hsound hr).1
  · intro hall
    cases hr : registerSources mapper entryPoint edges sources with
    | ok r => exact ⟨r, rfl⟩
    | error e =>
        obtain ⟨before, s, after, rfl, -, hs⟩ := (registerSources_eq_error_iff h hsound).mp hr
        rw [← List.append_assoc] at hall
        exact absurd hs hall.not_fault

end NinjaPlan
