import NinjaPlan.Proofs.Plan.Edges

/-! # The object directory

Objects stand beside their sources, or in the same arrangement below a directory of their own.  A
path is put below a directory before or after its extension is exchanged alike, so the directory has
a part in the objects only (`ObjectMapper.map_objectDir`).  Below an absolute root these are paths
without a root and without an opening dot, and such paths are the same below a directory exactly if
they were so before.

Hence a run over targets with the directory goes step by step like the run without it, with all
objects put into the directory (`Assembly.run_placed`).  Only when the plan is completed and targets
are compared with objects can the directory make a difference (`Plan.assemble_placed`). -/

namespace NinjaPlan

/-! ### Putting objects into a directory -/

def MappedSource.placed (dir : Path) (m : MappedSource) : MappedSource :=
  { m with object := dir.join m.object }

def CompileEdge.placed (dir : Path) (e : CompileEdge) : CompileEdge :=
  { e with object := dir.join e.object }

def LinkEdge.placed (dir : Path) (l : LinkEdge) : LinkEdge :=
  { l with inputs := l.inputs.map dir.join }

def Plan.placed (dir : Path) (p : Plan) : Plan :=
  { p with
    compileEdges := p.compileEdges.map (CompileEdge.placed dir)
    linkEdges := p.linkEdges.map (LinkEdge.placed dir) }

/-- The error with the object that it names, if it names one, in a directory. -/
def PlanError.placed (dir : Path) : PlanError → PlanError
  | .duplicateOutput object first second => .duplicateOutput (dir.join object) first second
  | e => e

def OwnedObject.placed (dir : Path) (o : OwnedObject) : OwnedObject :=
  { o with path := dir.join o.path }

/-- What a target owns, in a directory. -/
def Ownership.placed (dir : Path) (o : Ownership) : Ownership :=
  { o with objects := o.objects.map (OwnedObject.placed dir) }

def Assembly.placed (dir : Path) (a : Assembly) : Assembly where
  compileEdges := a.compileEdges.map (CompileEdge.placed dir)
  linkEdges := a.linkEdges.map (LinkEdge.placed dir)
  owned := a.owned.map (Ownership.placed dir)

/-- A result of assembling, with the objects in it or in its error in a directory. -/
def placedResult {α : Type} (dir : Path) (place : α → α) : Except PlanError α → Except PlanError α
  | .ok a => .ok (place a)
  | .error e => .error (e.placed dir)

variable {root dir : Path}

/-! ### One source -/

theorem ObjectMapper.map_objectDir (hroot : root.isAbsolute = true) (dir : Path) (s : SourceFile) :
    ObjectMapper.map ⟨root, dir⟩ s =
      (ObjectMapper.map { root := root } s).map (MappedSource.placed dir) := by
  cases hstrip : s.path.stripPrefix? root with
  | none => simp [map, hstrip, Except.map]
  | some below =>
      cases hname : below.fileName with
      | none => simp [map, hstrip, hname, Except.map]
      | some name =>
          have hplain : ObjectMapper.map { root := root } s =
              .ok ⟨below, below.withExtension objectExtension⟩ := by
            simp [map, hstrip, hname, Path.join_of_empty]
          have hrel : below.isAbsolute = false := (source_isInner hroot hplain).isAbsolute
          obtain ⟨above, hsegs, hblank, hup⟩ := Path.segments_stripPrefix? hstrip hname
          have hext : '/' ∉ objectExtension := by decide
          have hobject := Path.join_withExtension hsegs hblank hup hrel dir hext
          rw [hplain]
          simp [map, hstrip, hname, hobject, Except.map, MappedSource.placed]

/-! ### Distinct objects -/

/-- Putting paths into a directory keeps apart what is kept apart. -/
theorem firstSpellings_map_join {paths : List Path} (h : ∀ p ∈ paths, p.IsInner) :
    firstSpellings (paths.map dir.join) = (firstSpellings paths).map dir.join := by
  induction paths with
  | nil => rfl
  | cons p paths ih =>
      obtain ⟨hp, hpaths⟩ := List.forall_mem_cons.mp h
      rw [List.map_cons, firstSpellings, firstSpellings, List.map_cons, ih hpaths, List.filter_map]
      congr 2
      refine List.filter_congr fun q hq => ?_
      have hinner := hpaths q ((firstSpellings_sublist paths).subset hq)
      simp [Path.join_equiv_join_iff hp hinner]

theorem find?_object_placed {edges : List CompileEdge} {m : MappedSource}
    (hedges : ∀ e ∈ edges, e.object.IsInner) (hobject : m.object.IsInner) :
    ((edges.map (CompileEdge.placed dir)).find? fun e => decide (e.object ≈ (m.placed dir).object)) =
      (edges.find? fun e => decide (e.object ≈ m.object)).map (CompileEdge.placed dir) := by
  induction edges with
  | nil => rfl
  | cons e edges ih =>
      obtain ⟨he, hedges⟩ := List.forall_mem_cons.mp hedges
      have hsame : (e.placed dir).object ≈ (m.placed dir).object ↔ e.object ≈ m.object :=
        Path.join_equiv_join_iff he hobject
      rw [List.map_cons, List.find?_cons, List.find?_cons, ih hedges, decide_eq_decide.mpr hsame]
      cases decide (e.object ≈ m.object) <;> rfl

theorem registerEdge_placed {edges : List CompileEdge} {m : MappedSource}
    (hedges : ∀ e ∈ edges, e.object.IsInner) (hobject : m.object.IsInner) :
    registerEdge (edges.map (CompileEdge.placed dir)) (m.placed dir) =
      placedResult dir (List.map (CompileEdge.placed dir)) (registerEdge edges m) := by
  unfold registerEdge
  rw [find?_object_placed hedges hobject]
  cases edges.find? fun e => decide (e.object ≈ m.object) with
  | none => simp [placedResult, CompileEdge.placed, MappedSource.placed]
  | some e =>
      have hsource : (e.placed dir).source ≈ (m.placed dir).source ↔ e.source ≈ m.source := Iff.rfl
      dsimp only [Option.map_some]
      by_cases h : e.source ≈ m.source
      · rw [if_pos (hsource.mpr h), if_pos h]
        rfl
      · rw [if_neg (mt hsource.mp h), if_neg h]
        rfl

/-! ### Two runs -/

theorem Assembly.apart_of_finish {a : Assembly} {targets : List Target}
    (h : ∀ name, a.finish targets ≠ .error (.targetShadowsObject name)) :
    ∀ l ∈ a.linkEdges, ∀ e ∈ a.compileEdges, ¬ e.object ≈ l.output := by
  intro l hl e he ho
  unfold finish at h
  cases hshadow : a.linkEdges.find? fun l => a.compileEdges.any fun c =>
      decide (c.object ≈ l.output) with
  | some k =>
      rw [hshadow] at h
      exact h k.output rfl
  | none =>
      have hany := List.find?_eq_none.mp hshadow l hl
      exact hany (List.any_eq_true.mpr ⟨e, he, decide_eq_true ho⟩)

section runs

variable (hroot : root.isAbsolute = true) (dir : Path) (entryPoint : Text)
include hroot

theorem registerSources_placed {edges : List CompileEdge} (hedges : ∀ e ∈ edges, e.object.IsInner)
    (sources : List SourceFile) :
    registerSources ⟨root, dir⟩ entryPoint (edges.map (CompileEdge.placed dir)) sources =
      placedResult dir (Prod.map (List.map (CompileEdge.placed dir))
        (List.map (OwnedObject.placed dir)))
        (registerSources { root := root } entryPoint edges sources) := by
  induction sources generalizing edges with
  | nil => rfl
  | cons s rest ih =>
      rw [registerSources, registerSources, ObjectMapper.map_objectDir hroot]
      cases hm : ObjectMapper.map { root := root } s with
      | error e => rfl
      | ok m =>
          have hobject := ObjectMapper.object_isInner hroot rfl hm
          simp only [Except.map, registerEdge_placed hedges hobject]
          cases hr : registerEdge edges m with
          | error e => rfl
          | ok middle =>
              have hmiddle : ∀ e ∈ middle, e.object.IsInner := by
                have hregistered : Registered { root := root } entryPoint _ edges middle _ :=
                  registerEdge_registered hm hr
                intro e he
                rcases hregistered.asked e he with he | ⟨u, -, hu⟩
                · exact hedges e he
                · exact ObjectMapper.object_isInner hroot rfl hu
              simp only [placedResult, ih hmiddle]
              cases registerSources { root := root } entryPoint middle rest with
              | error e => rfl
              | ok r => rfl

namespace Assembly

variable {a : Assembly} {done : List Target}

omit hroot in
theorem objectsOf_placed (a : Assembly) (name : Path) :
    (a.placed dir).objectsOf name = (a.objectsOf name).map (List.map (OwnedObject.placed dir)) := by
  unfold objectsOf placed
  dsimp only
  rw [List.find?_map, Option.map_map, Option.map_map]
  rfl

omit hroot in
theorem reusedObjects_placed (a : Assembly) (spec : TargetSpec) :
    (a.placed dir).reusedObjects spec =
      placedResult dir (List.map dir.join) (a.reusedObjects spec) := by
  unfold reusedObjects
  cases spec.kind with
  | primary => rfl
  | secondary name =>
      dsimp only
      rw [objectsOf_placed]
      cases a.objectsOf name with
      | none => rfl
      | some objects =>
          simp only [Option.map_some, placedResult, List.filter_map, List.map_map]
          rfl

theorem Covers.isInner_of_linked (hc : a.Covers { root := root } entryPoint done)
    {t : Target} {edges edges' : List CompileEdge} {objects : List OwnedObject} {reused : List Path}
    (hr : registerSources { root := root } entryPoint edges t.sources = .ok (edges', objects))
    (hu : a.reusedObjects t.spec = .ok reused) {o : Path}
    (ho : o ∈ objects.map OwnedObject.path ++ reused) : o.IsInner := by
  have hown := hasObject_map_path (registerSources_registered hr).objects_of
  obtain ⟨s, m, hm, rfl⟩ : ∃ s, ObjectMapper.HasObject { root := root } s o := by
    rcases List.mem_append.mp ho with ho | ho
    · obtain ⟨s, -, hs⟩ := forall₂_exists_left hown ho
      exact ⟨s, hs⟩
    · have hreuses := hc.reuses hu
      unfold Target.Reuses at hreuses
      cases hk : t.spec.kind with
      | primary =>
          simp only [hk] at hreuses
          rw [hreuses] at ho
          cases ho
      | secondary name =>
          simp only [hk] at hreuses
          obtain ⟨r, -, -, hreused⟩ := hreuses
          obtain ⟨s, -, hs⟩ := forall₂_exists_left hreused ho
          exact ⟨s, hs⟩
  exact ObjectMapper.object_isInner hroot rfl hm

/-- A step below the directory puts what it adds into the directory. -/
theorem step_placed (hc : a.Covers { root := root } entryPoint done) (t : Target) :
    (a.placed dir).step ⟨root, dir⟩ entryPoint t =
      placedResult dir (Assembly.placed dir) (a.step { root := root } entryPoint t) := by
  have hedges : ∀ e ∈ a.compileEdges, e.object.IsInner := by
    intro e he
    obtain ⟨u, -, s, -, hs⟩ := hc.asked e he
    exact ObjectMapper.object_isInner hroot rfl hs
  have hsources : registerSources ⟨root, dir⟩ entryPoint (a.placed dir).compileEdges t.sources = _ :=
    registerSources_placed hroot dir entryPoint hedges t.sources
  unfold step
  rw [objectsOf_placed, Option.isSome_map, hsources, reusedObjects_placed]
  split
  · rfl
  · cases hr : registerSources { root := root } entryPoint a.compileEdges t.sources with
    | error e => rfl
    | ok r =>
        obtain ⟨edges, objects⟩ := r
        cases hu : a.reusedObjects t.spec with
        | error e => rfl
        | ok reused =>
            have hlinked : distinctPaths ((objects.map (OwnedObject.placed dir)).map
                OwnedObject.path ++ reused.map dir.join) =
                (distinctPaths (objects.map OwnedObject.path ++ reused)).map dir.join := by
              rw [distinctPaths_eq, distinctPaths_eq, ← firstSpellings_map_join fun o =>
                hc.isInner_of_linked hroot entryPoint hr hu]
              simp [OwnedObject.placed, Function.comp_def]
            simp only [placedResult, Prod.map, hlinked, Assembly.placed, List.map_append,
              List.map_cons, List.map_nil]
            rfl

/-- The run below the directory comes equally far, and fails for the same reason if at all. -/
theorem run_placed (hc : a.Covers { root := root } entryPoint done) (targets : List Target) :
    run ⟨root, dir⟩ entryPoint (a.placed dir) targets =
      Prod.map (Assembly.placed dir) (Option.map (PlanError.placed dir))
        (run { root := root } entryPoint a targets) := by
  induction targets generalizing a done with
  | nil => rfl
  | cons t targets ih =>
      rw [run, run, step_placed hroot dir entryPoint hc]
      cases hs : a.step { root := root } entryPoint t with
      | error e => rfl
      | ok b => exact ih (hc.step hs)

omit hroot in
theorem finish_placed {targets : List Target}
    (h : ∀ name, a.finish targets ≠ .error (.targetShadowsObject name))
    (hdir : ∀ name, (a.placed dir).finish targets ≠ .error (.targetShadowsObject name)) :
    (a.placed dir).finish targets = placedResult dir (Plan.placed dir) (a.finish targets) := by
  rw [finish_of_apart (apart_of_finish h), finish_of_apart (apart_of_finish hdir)]
  cases targets.find? fun t => decide (t.spec.kind = .primary) with
  | none => rfl
  | some t => rfl

end Assembly
end runs

/-- **An object directory moves the objects and nothing else.**  Below an absolute root, whatever the
directory is, a plan with it is the plan without it with all objects put into the directory.  Unless
a target is an object in one of the two, there are both plans or none, and the errors are the same
but for the object that they name. -/
theorem Plan.assemble_placed (hroot : root.isAbsolute = true) (dir : Path) (targets : List Target)
    (entryPoint : Text) :
    (∀ p q, assemble targets { root := root } entryPoint = .ok p →
      assemble targets ⟨root, dir⟩ entryPoint = .ok q → q = p.placed dir) ∧
    ((∀ name, assemble targets { root := root } entryPoint ≠ .error (.targetShadowsObject name)) →
      (∀ name, assemble targets ⟨root, dir⟩ entryPoint ≠ .error (.targetShadowsObject name)) →
      assemble targets ⟨root, dir⟩ entryPoint =
        placedResult dir (Plan.placed dir) (assemble targets { root := root } entryPoint)) := by
  have hrun := Assembly.run_placed hroot dir entryPoint Assembly.covers_nil targets
  have hboth : (∀ name, assemble targets { root := root } entryPoint ≠
        .error (.targetShadowsObject name)) →
      (∀ name, assemble targets ⟨root, dir⟩ entryPoint ≠ .error (.targetShadowsObject name)) →
      assemble targets ⟨root, dir⟩ entryPoint =
        placedResult dir (Plan.placed dir) (assemble targets { root := root } entryPoint) := by
    intro h hdir
    unfold assemble at h hdir ⊢
    have hstart : (Assembly.placed dir {}) = {} := rfl
    rw [hstart] at hrun
    rw [hrun] at hdir ⊢
    rcases hresult : Assembly.run { root := root } entryPoint {} targets with ⟨a, _ | e⟩
    · rw [hresult] at h hdir
      exact Assembly.finish_placed dir h hdir
    · rfl
  refine ⟨fun p q hp hq => ?_, hboth⟩
  have hsame := hboth (fun name h => nomatch hp.symm.trans h) fun name h => nomatch hq.symm.trans h
  rw [hp, hq] at hsame
  exact Except.ok.inj hsame

/-- Two files of a program that have one object. -/
def collidingTargets : List Target :=
  [⟨⟨"app", "src", .primary⟩, [⟨"/p/src/a.cc"⟩, ⟨"/p/./src/a.cpp"⟩]⟩]

/-- A directory that begins with a dot and ends with slashes moves the objects of the program and
its harnesses, and in another project the object that two files have. -/
theorem assemble_placed_harnessTargets :
    Plan.assemble harnessTargets ⟨"/p", "./o//"⟩ "main" = .ok (harnessPlan.placed "./o//") ∧
      Plan.assemble collidingTargets ⟨"/p", "./o//"⟩ "main" =
        .error (.duplicateOutput "./o//src/a.o" "src/a.cc" "src/a.cpp") := by
  have hroot : Path.isAbsolute "/p" = true := rfl
  constructor
  · obtain ⟨q, hq⟩ : ∃ q, Plan.assemble harnessTargets ⟨"/p", "./o//"⟩ "main" = .ok q := ⟨_, rfl⟩
    rw [hq, (Plan.assemble_placed hroot "./o//" harnessTargets "main").1 _ q
      assemble_harnessTargets hq]
  · have hplain : Plan.assemble collidingTargets { root := "/p" } "main" =
        .error (.duplicateOutput "src/a.o" "src/a.cc" "src/a.cpp") := rfl
    have hsame := (Plan.assemble_placed hroot "./o//" collidingTargets "main").2
      (by rw [hplain]; simp) (fun name h => nomatch h)
    rw [hsame, hplain]
    rfl

end NinjaPlan
