import NinjaPlan.Proofs.BuildFile.Lines
import NinjaPlan.Proofs.Flags.Lookups

/-! # Moving a project

A project that is moved has the same sources below another root.  A mapper takes the root off again:
what it makes of a source below an absolute root is told by the source alone
(`ObjectMapper.map_under`), and so is the stem of a source that it maps (`SourceFile.stem_under`).

Two runs over targets below two roots therefore go the same way, step by step (`Agrees`).  They give
one plan, or fail for one reason; the only error that tells the root is that of a source without a
file name (`PlanError.Moved`).  Build files of the two projects then differ in their rules at most,
and not at all if the compiler's flags are given without a place for the root
(`Plan.assemble_render_moved`). -/

namespace NinjaPlan

/-! ### Below a root -/

/-- The source below a root. -/
def SourceFile.under (root : Path) (s : SourceFile) : SourceFile := ⟨root.join s.path⟩

def Target.under (root : Path) (t : Target) : Target :=
  { t with sources := t.sources.map (SourceFile.under root) }

/-- Whether the sources of the target are told from a root. -/
def Target.IsRelative (t : Target) : Prop := ∀ s ∈ t.sources, s.path.isAbsolute = false

/-- The errors are the same, or that of one source without a file name below the two roots. -/
inductive PlanError.Moved (root root' : Path) : PlanError → PlanError → Prop where
  | same (e : PlanError) : Moved root root' e e
  | noFileName (below : Path) : Moved root root' (.unmapped (.noFileName (root.join below)))
      (.unmapped (.noFileName (root'.join below)))

/-- The results are the same, or errors that are related. -/
inductive Agrees {ε α : Type} (R : ε → ε → Prop) : Except ε α → Except ε α → Prop where
  | ok (a : α) : Agrees R (.ok a) (.ok a)
  | error {e e' : ε} (h : R e e') : Agrees R (.error e) (.error e')

theorem Agrees.cases {ε α : Type} {R : ε → ε → Prop} {x y : Except ε α} (h : Agrees R x y) :
    (∃ a, x = .ok a ∧ y = .ok a) ∨ ∃ e e', x = .error e ∧ y = .error e' ∧ R e e' := by
  cases h with
  | ok a => exact Or.inl ⟨a, rfl, rfl⟩
  | error h => exact Or.inr ⟨_, _, rfl, rfl, h⟩

variable {root root' : Path}

theorem ObjectMapper.map_under (hroot : root.isAbsolute = true) (objectDir : Path) {s : SourceFile}
    (hs : s.path.isAbsolute = false) :
    (⟨root, objectDir⟩ : ObjectMapper).map (s.under root) =
      if s.path.trimmed.fileName.isNone then .error (.noFileName (root.join s.path))
      else .ok ⟨s.path.trimmed, (objectDir.join s.path.trimmed).withExtension objectExtension⟩ := by
  have hstrip := Path.stripPrefix?_join hroot hs
  unfold ObjectMapper.map SourceFile.under
  rw [hstrip]

theorem SourceFile.stem_under (hroot : root.isAbsolute = true) {s : SourceFile}
    (hs : s.path.isAbsolute = false) {name : Text} (hname : s.path.trimmed.fileName = some name) :
    (s.under root).stem = s.path.trimmed.fileStem := by
  have hcomp := Path.components_stripPrefix? (Path.stripPrefix?_join hroot hs)
  have hlast : (root.join s.path).fileName = some name := by
    rw [Path.fileName_eq_some_iff] at hname ⊢
    rw [hcomp, List.getLast?_append, hname]
    rfl
  show (root.join s.path).fileStem = _
  rw [Path.fileStem, Path.fileStem, hlast, hname]

/-! ### Two runs -/

section runs

variable (hroot : root.isAbsolute = true) (hroot' : root'.isAbsolute = true)
  (objectDir : Path) (entryPoint : Text)
include hroot hroot'

theorem registerSources_moved (edges : List CompileEdge) {sources : List SourceFile}
    (hrel : ∀ s ∈ sources, s.path.isAbsolute = false) :
    Agrees (PlanError.Moved root root')
      (registerSources ⟨root, objectDir⟩ entryPoint edges (sources.map (SourceFile.under root)))
      (registerSources ⟨root', objectDir⟩ entryPoint edges
        (sources.map (SourceFile.under root'))) := by
  induction sources generalizing edges with
  | nil => exact .ok _
  | cons s rest ih =>
      obtain ⟨hs, hrest⟩ := List.forall_mem_cons.mp hrel
      have hmap := ObjectMapper.map_under hroot objectDir hs
      have hmap' := ObjectMapper.map_under hroot' objectDir hs
      rw [List.map_cons, List.map_cons, registerSources, registerSources, hmap, hmap']
      cases hname : s.path.trimmed.fileName with
      | none => exact .error (.noFileName s.path)
      | some name =>
          rw [SourceFile.stem_under hroot hs hname, SourceFile.stem_under hroot' hs hname]
          simp only [Option.isNone_some, Bool.false_eq_true, if_false]
          cases registerEdge edges ⟨s.path.trimmed,
              (objectDir.join s.path.trimmed).withExtension objectExtension⟩ with
          | error e => exact .error (.same e)
          | ok edges' =>
              rcases (ih edges' hrest).cases with ⟨r, hr, hr'⟩ | ⟨e, e', hr, hr', he⟩
              · simp only [hr, hr']
                exact .ok _
              · simp only [hr, hr']
                exact .error he

namespace Assembly

theorem step_moved (a : Assembly) {t : Target} (hrel : t.IsRelative) :
    Agrees (PlanError.Moved root root') (a.step ⟨root, objectDir⟩ entryPoint (t.under root))
      (a.step ⟨root', objectDir⟩ entryPoint (t.under root')) := by
  have hspec : ∀ r, (t.under r).spec = t.spec := fun _ => rfl
  have hagrees := registerSources_moved hroot hroot' objectDir entryPoint a.compileEdges hrel
  unfold step
  rw [hspec, hspec]
  split
  · exact .error (.same _)
  · rcases hagrees.cases with ⟨r, hr, hr'⟩ | ⟨e, e', hr, hr', he⟩
    · simp only [Target.under, hr, hr']
      cases a.reusedObjects t.spec with
      | error e => exact .error (.same e)
      | ok reused => exact .ok _
    · simp only [Target.under, hr, hr']
      exact .error he

/-- Both runs come equally far. -/
theorem run_moved (a : Assembly) {targets : List Target} (hrel : ∀ t ∈ targets, t.IsRelative) :
    (run ⟨root, objectDir⟩ entryPoint a (targets.map (Target.under root))).1 =
      (run ⟨root', objectDir⟩ entryPoint a (targets.map (Target.under root'))).1 ∧
    Option.Rel (PlanError.Moved root root')
      (run ⟨root, objectDir⟩ entryPoint a (targets.map (Target.under root))).2
      (run ⟨root', objectDir⟩ entryPoint a (targets.map (Target.under root'))).2 := by
  induction targets generalizing a with
  | nil => exact ⟨rfl, .none⟩
  | cons t targets ih =>
      obtain ⟨ht, hrest⟩ := List.forall_mem_cons.mp hrel
      rw [List.map_cons, List.map_cons, run, run]
      rcases (step_moved hroot hroot' objectDir entryPoint a ht).cases with
        ⟨b, hb, hb'⟩ | ⟨e, e', hb, hb', he⟩
      · simp only [hb, hb']
        exact ih b hrest
      · rw [hb, hb']
        exact ⟨rfl, .some he⟩

end Assembly
end runs

/-- Where its sources lie does not matter when a plan is completed. -/
theorem Assembly.finish_under (a : Assembly) (root : Path) (targets : List Target) :
    a.finish (targets.map (Target.under root)) = a.finish targets := by
  have hprimary : (targets.map (Target.under root)).find?
      (fun t => decide (t.spec.kind = .primary)) =
        (targets.find? fun t => decide (t.spec.kind = .primary)).map (Target.under root) :=
    List.find?_map
  unfold finish
  rw [hprimary]
  cases targets.find? fun t => decide (t.spec.kind = .primary) with
  | none => rfl
  | some t => rfl

/-- Targets below two roots have one plan, or fail for one reason. -/
theorem Plan.assemble_moved (hroot : root.isAbsolute = true) (hroot' : root'.isAbsolute = true)
    {targets : List Target} (hrel : ∀ t ∈ targets, t.IsRelative) (objectDir : Path)
    (entryPoint : Text) :
    Agrees (PlanError.Moved root root')
      (Plan.assemble (targets.map (Target.under root)) ⟨root, objectDir⟩ entryPoint)
      (Plan.assemble (targets.map (Target.under root')) ⟨root', objectDir⟩ entryPoint) := by
  obtain ⟨hassembly, hfailure⟩ := Assembly.run_moved hroot hroot' objectDir entryPoint {} hrel
  unfold assemble
  rcases hrun : Assembly.run ⟨root, objectDir⟩ entryPoint {}
    (targets.map (Target.under root)) with ⟨a, failure⟩
  rcases hrun' : Assembly.run ⟨root', objectDir⟩ entryPoint {}
    (targets.map (Target.under root')) with ⟨a', failure'⟩
  rw [hrun, hrun'] at hassembly hfailure
  obtain rfl : a = a' := hassembly
  cases hfailure with
  | some he => exact .error he
  | none =>
      simp only [Assembly.finish_under]
      cases a.finish targets with
      | error e => exact .error (.same e)
      | ok p => exact .ok p

/-! ### Two build files -/

namespace FlagRequest

variable {r : FlagRequest} {source : PackageSource} {t : FileTree}

/-- The request for a project with another root. -/
def movedTo (r : FlagRequest) (root : Path) : FlagRequest := { r with root := root }

/-- The flags are resolved, the targets planned, and the plan is written down as the text. -/
def Writes (r : FlagRequest) (source : PackageSource) (t : FileTree) (objectDir : Path)
    (entryPoint : Text) (targets : List Target) (text : Text) : Prop :=
  ∃ c p, (r.resolve source t).result = .ok c ∧
    Plan.assemble targets ⟨r.root, objectDir⟩ entryPoint = .ok p ∧ BuildFile.render p c = .ok text

theorem baseFlags_of_override {flags base : Text} (hover : r.compileOverride = some flags)
    (hplace : ¬ rootPlaceholder <:+: flags) (h : r.baseFlags = .ok base) : base = flags := by
  unfold baseFlags at h
  rw [hover] at h
  obtain ⟨word, -, h⟩ := BuildFile.bind_eq_ok_iff.mp h
  rw [← Except.ok.inj h, Text.replaceAll_of_not_infix hplace]

/-- The root has a part in the flags only before those of the packages. -/
theorem resolve_movedTo {base : Text} (h : (r.movedTo root).baseFlags = .ok base)
    (h' : (r.movedTo root').baseFlags = .ok base) :
    (r.movedTo root).resolve source t = (r.movedTo root').resolve source t := by
  unfold resolve
  rw [h, h']
  rfl

theorem resolve_of_override {flags : Text} (hover : r.compileOverride = some flags)
    (hplace : ¬ rootPlaceholder <:+: flags) {c c' : FlagConfig}
    (h : ((r.movedTo root).resolve source t).result = .ok c)
    (h' : ((r.movedTo root').resolve source t).result = .ok c') : c = c' := by
  obtain ⟨base, -, -, -, -, hbase, -⟩ := resolve_cases h
  obtain ⟨base', -, -, -, -, hbase', -⟩ := resolve_cases h'
  obtain rfl := baseFlags_of_override (r := r.movedTo root) hover hplace hbase
  obtain rfl := baseFlags_of_override (r := r.movedTo root') hover hplace hbase'
  rw [resolve_movedTo hbase hbase', h'] at h
  exact (Except.ok.inj h).symm

end FlagRequest

/-- **A project can be moved.**  The same targets below two absolute roots have one plan, or fail
for one reason.  Whatever is asked of the tools, build files that are written for both have the same
build and default statements; and if the flags of the compiler are given without a place for the
root, they are one file. -/
theorem Plan.assemble_render_moved (hroot : root.isAbsolute = true)
    (hroot' : root'.isAbsolute = true) {targets : List Target}
    (hrel : ∀ t ∈ targets, t.IsRelative) (objectDir : Path) (entryPoint : Text) :
    Agrees (PlanError.Moved root root')
      (Plan.assemble (targets.map (Target.under root)) ⟨root, objectDir⟩ entryPoint)
      (Plan.assemble (targets.map (Target.under root')) ⟨root', objectDir⟩ entryPoint) ∧
    ∀ (r : FlagRequest) (source : PackageSource) (t : FileTree) (text text' : Text),
      (r.movedTo root).Writes source t objectDir entryPoint (targets.map (Target.under root))
        text →
      (r.movedTo root').Writes source t objectDir entryPoint (targets.map (Target.under root'))
        text' →
      BuildFile.statementLines text = BuildFile.statementLines text' ∧
        ∀ flags, r.compileOverride = some flags → ¬ rootPlaceholder <:+: flags → text = text' := by
  have hagrees := Plan.assemble_moved hroot hroot' hrel objectDir entryPoint
  refine ⟨hagrees, ?_⟩
  rintro r source t text text' ⟨c, p, hc, hp, htext⟩ ⟨c', p', hc', hp', htext'⟩
  have hsame : p = p' := by
    rcases hagrees.cases with ⟨q, hq, hq'⟩ | ⟨e, -, he, -⟩
    · rw [Except.ok.inj (hp.symm.trans hq), Except.ok.inj (hp'.symm.trans hq')]
    · cases hp.symm.trans he
  subst hsame
  refine ⟨BuildFile.statementLines_eq htext htext', fun flags hover hplace => ?_⟩
  obtain rfl := FlagRequest.resolve_of_override hover hplace hc hc'
  exact Except.ok.inj (htext.symm.trans htext')

/-! ### A program below two roots -/

/-- A program whose sources are told in odd ways. -/
def movableTarget : Target := ⟨⟨"app", "src", .primary⟩, [⟨"./src//a.cc"⟩, ⟨"src/main.cc"⟩]⟩

def movablePlan : Plan where
  compileEdges := [⟨"src//a.cc", "o/src//a.o"⟩, ⟨"src/main.cc", "o/src/main.o"⟩]
  linkEdges := [⟨"app", ["o/src//a.o", "o/src/main.o"]⟩]
  defaultTarget := "app"

/-- Asks for the flags of the program; the root is to be given. -/
def movableRequest (compileOverride : Option Text) : FlagRequest where
  compiler := "c++"
  linker := "c++"
  compileOverride := compileOverride
  depFlags := ""
  root := ""
  includeDir := "src"

/-- How the program is built with flags. -/
def movableFlags (flags : Text) : FlagConfig where
  compiler := "c++"
  linker := "c++"
  compileFlags := flags
  linkFlags := flags
  depFlags := ""
  mode := .debug

/-- The flags of the compiler without an override. -/
def flagsBelow (root : Text) : Text :=
  "-Wall -Wextra -std=c++17 -I" ++ root ++ "/src -fPIC -O0 -g -DDEBUG"

/-- The build file of the program. -/
def movableFile (flags : Text) : Text :=
  [("rule cxx" : Text), "  depfile = $out.d", "  command = c++ " ++ flags ++ " -c $in -o $out", "",
    "rule link", "  command = c++ $in " ++ flags ++ " -o $out", "",
    "build o/src//a.o: cxx src//a.cc", "build o/src/main.o: cxx src/main.cc", "",
    "build app: link o/src//a.o o/src/main.o", "", "default app"].flatMap fun line =>
      line ++ ['\n']

def noPackageFlags : PackageAnswers := fun _ _ => .ok []

theorem writes_movableFile (root : Path) (h : root = "/p" ∨ root = "//q/./") :
    ((movableRequest none).movedTo root).Writes noPackageFlags.source {} "o" "main"
        [movableTarget.under root] (movableFile (flagsBelow root.text)) ∧
      ((movableRequest (some "-O2")).movedTo root).Writes noPackageFlags.source {} "o" "main"
        [movableTarget.under root] (movableFile "-O2") := by
  have hassemble : Plan.assemble [movableTarget.under root] ⟨root, "o"⟩ "main" =
      .ok movablePlan := by rcases h with rfl | rfl <;> rfl
  refine ⟨⟨movableFlags (flagsBelow root.text), movablePlan, ?_, hassemble, ?_⟩,
    movableFlags "-O2", movablePlan, ?_, hassemble, by decide +kernel⟩ <;>
    rcases h with rfl | rfl <;> decide +kernel

theorem isRelative_movableTarget : movableTarget.IsRelative := by
  unfold Target.IsRelative
  decide

/-- Below both roots the program's build files have the same statements, whether they are one file,
as with an override, or two. -/
theorem statementLines_movableFile :
    movableFile (flagsBelow "/p") ≠ movableFile (flagsBelow "//q/./") ∧
      BuildFile.statementLines (movableFile (flagsBelow "/p")) =
        BuildFile.statementLines (movableFile (flagsBelow "//q/./")) ∧
      ((movableRequest (some "-O2")).movedTo "/p").Writes noPackageFlags.source {} "o" "main"
        [movableTarget.under "/p"] (movableFile "-O2") ∧
      ((movableRequest (some "-O2")).movedTo "//q/./").Writes noPackageFlags.source {} "o" "main"
        [movableTarget.under "//q/./"] (movableFile "-O2") := by
  have hrelative : ∀ t ∈ [movableTarget], t.IsRelative :=
    List.forall_mem_singleton.mpr isRelative_movableTarget
  have hfirst := writes_movableFile "/p" (Or.inl rfl)
  have hsecond := writes_movableFile "//q/./" (Or.inr rfl)
  have hmoved := Plan.assemble_render_moved (by rfl : Path.isAbsolute "/p" = true)
    (by rfl : Path.isAbsolute "//q/./" = true) hrelative "o" "main"
  exact ⟨by decide +kernel, (hmoved.2 _ _ _ _ _ hfirst.1 hsecond.1).1, hfirst.2, hsecond.2⟩

end NinjaPlan
