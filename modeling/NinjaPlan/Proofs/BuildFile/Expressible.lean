import NinjaPlan.Proofs.BuildFile.Checks
import NinjaPlan.Proofs.BuildFile.ReadBack
import NinjaPlan.Proofs.Path.Spelling

/-! # What the documented syntax can express

A reader finds only paths that its syntax can express (`read_sound`).  In the documented syntax
these are the paths that are not empty and hold no pipe, which has no escape; and a path with a
line break is never written (`hasLineBreak_of_render`).  So a build file says in the documented
syntax what its plan asks for exactly if no path of the plan is empty or holds a pipe
(`read_documented_iff`), which is a matter of the targets alone
(`read_documented_assemble_iff`). -/

namespace NinjaPlan.BuildFile

/-! ### Reading is sound -/

/-- The paths of the statement can be written in the syntax. -/
def Statement.ExpressedIn (σ : PathSyntax) : Statement → Prop
  | .build output _ inputs => σ.Expresses output ∧ ∀ s ∈ inputs, σ.Expresses s
  | .defaults targets => ∀ s ∈ targets, σ.Expresses s
  | .rule _ | .binding _ _ => True

section sound

variable {σ : PathSyntax} (hσ : ∀ c, σ.escapes c = true → needsEscape c = true)
include hσ

theorem takePathChars_sound {line path after : Text}
    (h : takePathChars σ line = some (path, after)) :
    ∀ c ∈ path, σ.ends c = true → needsEscape c = true := by
  -- A character gets into the path behind a dollar sign or because it does not end the path.
  fun_induction takePathChars σ line generalizing path with
  | case1 => cases h; simp
  | case2 => cases h
  | case3 d rest hd ih =>
      obtain ⟨⟨front, after'⟩, hfront, heq⟩ := Option.map_eq_some_iff.mp h
      obtain ⟨rfl, rfl⟩ := Prod.mk.inj heq
      intro c hc hends
      rcases List.mem_cons.mp hc with rfl | hc
      · exact hσ c hd
      · exact ih hfront c hc hends
  | case4 => cases h
  | case5 => cases h; simp
  | case6 d rest _ _ hd ih =>
      obtain ⟨⟨front, after'⟩, hfront, heq⟩ := Option.map_eq_some_iff.mp h
      obtain ⟨rfl, rfl⟩ := Prod.mk.inj heq
      intro c hc hends
      rcases List.mem_cons.mp hc with rfl | hc
      · exact absurd hends hd
      · exact ih hfront c hc hends

theorem takePath_sound {line path after : Text} (h : takePath σ line = some (path, after)) :
    σ.Expresses path := by
  unfold takePath at h
  cases hchars : takePathChars σ line with
  | none => simp [hchars] at h
  | some found =>
      obtain ⟨front, rest⟩ := found
      simp only [hchars] at h
      split at h
      · cases h
      · next hempty =>
          obtain ⟨rfl, rfl⟩ := Prod.mk.inj (Option.some.inj h)
          refine ⟨?_, takePathChars_sound hσ hchars⟩
          rintro rfl
          simpa using hempty

theorem takePaths_sound {fuel : Nat} {line : Text} {paths : List Text}
    (h : takePaths σ fuel line = some paths) : ∀ s ∈ paths, σ.Expresses s := by
  induction fuel generalizing line paths with
  | zero =>
      cases line with
      | nil => cases h; simp
      | cons c rest => cases h
  | succ fuel ih =>
      cases line with
      | nil => cases h; simp
      | cons c rest =>
          rw [takePaths] at h
          split at h
          · obtain ⟨⟨path, after⟩, hpath, h⟩ := Option.bind_eq_some_iff.mp h
            obtain ⟨others, hothers, h⟩ := Option.bind_eq_some_iff.mp h
            obtain rfl : path :: others = paths := Option.some.inj h
            exact List.forall_mem_cons.mpr ⟨takePath_sound hσ hpath, ih hothers⟩
          · cases h

theorem readBuild_sound {line : Text} {s : Statement} (h : readBuild σ line = some s) :
    s.ExpressedIn σ := by
  obtain ⟨⟨output, rest⟩, houtput, h⟩ := Option.bind_eq_some_iff.mp h
  obtain ⟨rest', -, h⟩ := Option.bind_eq_some_iff.mp h
  obtain ⟨inputs, hinputs, h⟩ := Option.bind_eq_some_iff.mp h
  obtain rfl := Option.some.inj h
  exact ⟨takePath_sound hσ houtput, takePaths_sound hσ hinputs⟩

theorem readLine_sound {line : Text} {s : Statement} (h : readLine σ line = some s) :
    s.ExpressedIn σ := by
  unfold readLine at h
  split at h
  · obtain ⟨value, -, rfl⟩ := Option.map_eq_some_iff.mp h
    trivial
  · obtain rfl := Option.some.inj h
    trivial
  · exact readBuild_sound hσ h
  · obtain ⟨targets, htargets, rfl⟩ := Option.map_eq_some_iff.mp h
    exact takePaths_sound hσ htargets
  · cases h

theorem readLines_sound {lines : List Text} {found : List Statement}
    (h : readLines σ lines = some found) : ∀ s ∈ found, s.ExpressedIn σ := by
  induction lines generalizing found with
  | nil => cases h; simp
  | cons line lines ih =>
      rw [readLines] at h
      split at h
      · exact ih h
      · obtain ⟨s, hs, h⟩ := Option.bind_eq_some_iff.mp h
        obtain ⟨others, hothers, h⟩ := Option.bind_eq_some_iff.mp h
        obtain rfl : s :: others = found := Option.some.inj h
        exact List.forall_mem_cons.mpr ⟨readLine_sound hσ hs, ih hothers⟩

/-- Whatever a reader finds, its syntax can express. -/
theorem read_sound {file : Text} {found : List Statement} (h : read σ file = some found) :
    ∀ s ∈ found, s.ExpressedIn σ :=
  readLines_sound hσ h

end sound

/-! ### The documented syntax -/

theorem PathSyntax.documented_knowsEscapes : PathSyntax.documented.KnowsEscapes :=
  ⟨fun _ h => h, rfl, rfl⟩

theorem PathSyntax.documented_expresses_iff {s : Text} :
    PathSyntax.documented.Expresses s ↔ s ≠ [] ∧ '|' ∉ s := by
  constructor
  · rintro ⟨hempty, hends⟩
    exact ⟨fun h => Bool.false_ne_true (hempty h), fun h => absurd (hends '|' h rfl) (by decide)⟩
  · rintro ⟨hempty, hpipe⟩
    refine ⟨fun h => absurd h hempty, ?_⟩
    intro c hc hends
    have hnot : c ≠ '|' := by
      rintro rfl
      exact hpipe hc
    simpa [PathSyntax.documented, needsEscape, hnot, or_assoc] using Or.inr hends

theorem PathSyntax.expressesPlan_iff {σ : PathSyntax} (hσ : σ.allowsEmpty = false) {p : Plan} :
    σ.ExpressesPlan p ↔ ∀ q ∈ p.paths, σ.Expresses q.text := by
  constructor
  · intro hp q hq
    rcases Plan.mem_paths_iff.mp hq with ⟨e, he, rfl | rfl⟩ | ⟨l, hl, rfl | hq⟩ | rfl
    · exact (hp.compiles e he).1
    · exact (hp.compiles e he).2
    · exact hp.outputs l hl
    · exact (hp.inputs l hl q hq).1
    · exact hp.default
  · intro hall
    have hedge : ∀ e ∈ p.compileEdges, ∀ q, q = e.object ∨ q = e.source → σ.Expresses q.text :=
      fun e he q hq => hall q (Plan.mem_paths_iff.mpr (Or.inl ⟨e, he, hq⟩))
    have hlink : ∀ l ∈ p.linkEdges, ∀ q, q = l.output ∨ q ∈ l.inputs → σ.Expresses q.text :=
      fun l hl q hq => hall q (Plan.mem_paths_iff.mpr (Or.inr (Or.inl ⟨l, hl, hq⟩)))
    refine
      { compiles := fun e he => ⟨hedge e he _ (Or.inl rfl), hedge e he _ (Or.inr rfl)⟩
        outputs := fun l hl => hlink l hl _ (Or.inl rfl)
        inputs := fun l hl i hi => ⟨hlink l hl i (Or.inr hi), fun hempty => ?_⟩
        default := hall _ (Plan.mem_paths_iff.mpr (Or.inr (Or.inr rfl))) }
    rw [(hlink l hl i (Or.inr hi)).1 hempty] at hσ
    cases hσ

/-- If a reader finds what a plan asks for, the plan can be written in its syntax. -/
theorem expresses_of_read {σ : PathSyntax} (hσ : ∀ c, σ.escapes c = true → needsEscape c = true)
    {p : Plan} {c : FlagConfig} {text : Text} (h : read σ text = some (statements p c)) :
    ∀ q ∈ p.paths, σ.Expresses q.text := by
  have hall := read_sound hσ h
  intro q hq
  rcases Plan.mem_paths_iff.mp hq with ⟨e, he, hq⟩ | ⟨l, hl, hq⟩ | rfl
  · have hbuild := hall (.build e.object.text compileRule [e.source.text])
      (by simpa [statements] using Or.inl ⟨e, he, rfl, rfl⟩)
    rcases hq with rfl | rfl
    · exact hbuild.1
    · exact hbuild.2 _ List.mem_cons_self
  · have hbuild := hall (.build l.output.text linkRule (l.inputs.map Path.text))
      (by simpa [statements] using Or.inr ⟨l, hl, rfl, rfl⟩)
    rcases hq with rfl | hq
    · exact hbuild.1
    · exact hbuild.2 _ (List.mem_map_of_mem hq)
  · exact hall (.defaults [p.defaultTarget.text]) (by simp [statements]) _ List.mem_cons_self

/-- A build file says in the documented syntax what its plan asks for exactly if all paths of the
plan can be written there. -/
theorem read_documented_iff {p : Plan} {c : FlagConfig} {text : Text}
    (h : render p c = .ok text) : read .documented text = some (statements p c) ↔
      ∀ q ∈ p.paths, q.text ≠ [] ∧ '|' ∉ q.text := by
  have hpaths : (∀ q ∈ p.paths, PathSyntax.documented.Expresses q.text) ↔
      ∀ q ∈ p.paths, q.text ≠ [] ∧ '|' ∉ q.text :=
    forall₂_congr fun _ _ => PathSyntax.documented_expresses_iff
  rw [← hpaths]
  constructor
  · exact expresses_of_read fun _ hc => hc
  · intro hall
    exact (tells_of_render PathSyntax.documented_knowsEscapes
      ((PathSyntax.expressesPlan_iff rfl).mpr hall) h).read

/-! ### Targets with expressible paths -/

section assembled

variable {mapper : ObjectMapper} {entryPoint : Text} {targets : List Target} {p : Plan}

theorem hasLineBreak_eq_false_iff {s : Text} :
    Text.hasLineBreak s = false ↔ '\n' ∉ s ∧ '\r' ∉ s := by
  simp [Text.hasLineBreak, List.any_eq_false, not_or, forall_and, List.forall_mem_ne']

/-- **What targets a build file can be written for.**  A build file is written only if no path that
the targets bring in holds a line break; and it says in the documented syntax what the plan asks
for exactly if none of them is empty or holds a pipe. -/
theorem read_documented_assemble_iff (h : Plan.assemble targets mapper entryPoint = .ok p)
    {c : FlagConfig} {text : Text} (hr : render p c = .ok text) :
    (∀ t ∈ targets, ∀ q, t.Brings mapper q → Text.hasLineBreak q.text = false) ∧
      (read .documented text = some (statements p c) ↔
        ∀ t ∈ targets, ∀ q, t.Brings mapper q → q.text ≠ [] ∧ '|' ∉ q.text) := by
  constructor
  · refine (Plan.forall_paths_iff h ?_).mp (hasLineBreak_of_render hr)
    intro q r hqr
    rw [hasLineBreak_eq_false_iff, hasLineBreak_eq_false_iff,
      Path.mem_text_of_equiv hqr (by decide) (by decide),
      Path.mem_text_of_equiv hqr (by decide) (by decide)]
    exact id
  · rw [read_documented_iff hr]
    refine Plan.forall_paths_iff h ?_
    intro q r hqr
    rw [ne_eq, ne_eq, Path.text_eq_nil_of_equiv hqr,
      Path.mem_text_of_equiv hqr (by decide) (by decide)]
    exact id

end assembled

theorem read_documented_oddFile :
    Plan.assemble oddTargets ⟨"/p", ⟨[]⟩⟩ "main" = .ok oddPlan ∧
      render oddPlan oddFlags = .ok oddFile ∧
      read .documented oddFile = some (statements oddPlan oddFlags) := by
  refine ⟨assemble_oddTargets, render_oddPlan, ?_⟩
  refine (read_documented_assemble_iff assemble_oddTargets render_oddPlan).2.mpr ?_
  intro t ht q hq
  obtain rfl := List.mem_singleton.mp ht
  rcases hq with rfl | ⟨m, ⟨s, hs, hm⟩, hq⟩
  · decide
  · simp only [List.mem_cons, List.not_mem_nil, or_false] at hs
    rcases hs with rfl | rfl <;>
      (obtain rfl := Except.ok.inj hm; rcases hq with rfl | rfl <;> decide)

/-! ### A program with a pipe in its name -/

/-- A program whose name holds a pipe. -/
def pipedTargets : List Target := [⟨⟨"a|b", "src", .primary⟩, [⟨"/p/src/main.cc"⟩]⟩]

def plainFlags : FlagConfig where
  compiler := "c++"
  linker := "c++"
  compileFlags := ""
  linkFlags := ""
  depFlags := ""
  mode := .debug

def pipedPlan : Plan where
  compileEdges := [⟨"src/main.cc", "src/main.o"⟩]
  linkEdges := [⟨"a|b", ["src/main.o"]⟩]
  defaultTarget := "a|b"

/-- The build file of the plan. -/
def pipedFile : Text :=
  [("rule cxx" : Text), "  depfile = $out.d", "  command = c++ -c $in -o $out", "",
    "rule link", "  command = c++ $in -o $out", "", "build src/main.o: cxx src/main.cc", "",
    "build a|b: link src/main.o", "", "default a|b"].flatMap fun line => line ++ ['\n']

set_option maxRecDepth 4000 in
/-- The build file is written, but in the documented syntax the name ends at the pipe. -/
theorem read_documented_pipedFile :
    Plan.assemble pipedTargets ⟨"/p", ⟨[]⟩⟩ "main" = .ok pipedPlan ∧
      render pipedPlan plainFlags = .ok pipedFile ∧
      read .documented pipedFile ≠ some (statements pipedPlan plainFlags) := by
  have hread : read .documented pipedFile = none := by rfl
  exact ⟨rfl, by rfl, by simp [hread]⟩

end NinjaPlan.BuildFile
