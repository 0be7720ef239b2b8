import NinjaPlan.Proofs.Files.Items
import NinjaPlan.Proofs.Files.Spelling
import NinjaPlan.Proofs.Plan.FirstFault
import NinjaPlan.Proofs.Plan.Mapping
import NinjaPlan.Proofs.Project.EntryPoint

/-! # Errors that no settings cause

The plan of a project is made of two targets that always come in one order: the program, which is
primary, and the tests, which reuse it.  So no settings make a target reuse one that is unknown, or
leave the plan without a primary target, and a target is declared again only if program and tests
are given one name (`Layout.Assembles.fault_cases`).

A source without a name would have to be the root itself, and a path that goes on from a directory
by the name of a file does not lead to a directory (`map_ne_noFileName_of_discover`).  So this error
is out of reach as well while the root is a directory.

Together: `Options.generate_configured`. -/

namespace NinjaPlan

/-! ### Sources without a name -/

section nameless

variable {t : FileTree} {here : Location} {root subdir : Path} {extensions : List Text}
  {found : List SourceFile} {s : SourceFile}

theorem FileTree.get?_ne_directory_of_itemKind {dir place : Location} {name : Name}
    (hkind : t.itemKind dir name = .file)
    (hfollow : t.follow linkLimit dir [name] = .ok (.found place)) :
    t.get? place ≠ some .directory := by
  obtain ⟨loc, e, hloc, hget, -, hfile⟩ := (itemKind_eq_iff (Or.inl rfl)).mp hkind
  obtain rfl := Reached.found.inj (Except.ok.inj (hfollow.symm.trans hloc))
  rw [hget]
  intro hdirectory
  rw [Option.some.inj hdirectory] at hfile
  cases hfile

theorem text_ne_nil_of_directoryAt (h : t.directoryAt here root.bytes ≠ none) :
    root.text ≠ [] := by
  obtain ⟨place, hplace⟩ := Option.ne_none_iff_exists'.mp h
  obtain ⟨-, hbytes, -⟩ := FileTree.directoryAt_eq_some_iff.mp hplace
  exact fun hempty => hbytes (congrArg Utf8.encode hempty)

theorem components_ne_of_discover (hwell : t.WellNamed)
    (hthere : t.directoryAt here root.bytes ≠ none)
    (h : (discover t here root subdir extensions).result = .ok found) (hs : s ∈ found) :
    s.path.components ≠ root.components := by
  intro hsame
  obtain ⟨place, hplace⟩ := Option.ne_none_iff_exists'.mp hthere
  obtain ⟨-, -, -, -, hdirectory⟩ := FileTree.directoryAt_eq_some_iff.mp hplace
  have hroot := text_ne_nil_of_directoryAt hthere
  obtain ⟨loc, hloc, item, hitem, hkind, name, hdecode, hcomponents⟩ :=
    exists_item_of_discover hwell hroot h hs
  have hdir : (sourceDirectory root subdir).text ≠ [] := Path.join_text_ne_nil hroot _
  rw [hsame] at hcomponents
  have hfollow := FileTree.follow_of_directoryAt_concat hdir hcomponents hplace hloc
  rw [Utf8.encode_of_decode hdecode] at hfollow
  rw [(FileTree.mem_items_iff.mp hitem).2] at hkind
  exact FileTree.get?_ne_directory_of_itemKind hkind hfollow hdirectory

theorem ObjectMapper.eq_of_map_noFileName {mapper : ObjectMapper} {p : Path}
    (h : mapper.map s = .error (.noFileName p)) : p = s.path := by
  unfold map at h
  cases hstrip : s.path.stripPrefix? mapper.root with
  | none => simp [hstrip] at h
  | some below =>
      simp only [hstrip] at h
      split_ifs at h
      exact (MapError.noFileName.inj (Except.error.inj h)).symm

theorem map_ne_noFileName_of_discover {objectDir : Path} (hwell : t.WellNamed)
    (hthere : t.directoryAt here root.bytes ≠ none)
    (h : (discover t here root subdir extensions).result = .ok found) (hs : s ∈ found) (p : Path) :
    ObjectMapper.map ⟨root, objectDir⟩ s ≠ .error (.noFileName p) := by
  intro hmap
  obtain rfl := ObjectMapper.eq_of_map_noFileName hmap
  obtain ⟨rest, hrest, hlast⟩ := ObjectMapper.map_eq_noFileName_iff.mp hmap
  obtain ⟨name, hname⟩ := components_of_discover hwell (text_ne_nil_of_directoryAt hthere) h hs
  rcases List.eq_nil_or_concat rest with rfl | ⟨front, last, rfl⟩
  · rw [List.append_nil] at hrest
    exact components_ne_of_discover hwell hthere h hs hrest
  · -- The last component of the source is a name.
    rw [hname, List.concat_eq_append, ← List.append_assoc] at hrest
    obtain ⟨-, hend⟩ := List.append_inj' hrest rfl
    refine hlast name ?_
    rw [List.concat_eq_append, List.getLast?_concat, ← List.singleton_inj.mp hend]

end nameless

/-! ### The two targets -/

namespace Layout

variable {l : Layout} {t : FileTree} {here : Location}

/-- What comes of assembling a plan from the sources that are found for the program and for its
tests. -/
def Assembles (l : Layout) (t : FileTree) (here : Location) (r : Except PlanError Plan) : Prop :=
  ∃ targets, List.Forall₂ (l.Finds t here) l.targets targets ∧
    Plan.assemble targets l.objectMapper l.entryPoint = r

theorem Assembles.exists_targets {r : Except PlanError Plan} (h : l.Assembles t here r) :
    ∃ program tests, l.Finds t here ⟨l.name, l.sourceDir, .primary⟩ program ∧
      l.Finds t here ⟨l.testName, l.testDir, .secondary l.name⟩ tests ∧
      Plan.assemble [program, tests] l.objectMapper l.entryPoint = r := by
  obtain ⟨found, hfinds, hr⟩ := h
  obtain ⟨program, tests, hprogram, htests, rfl⟩ := forall₂_targets_iff.mp hfinds
  exact ⟨program, tests, hprogram, htests, hr⟩

/-- One of two targets has a fault: the first, behind no target, or the second, behind the first. -/
theorem fault_of_pair {mapper : ObjectMapper} {first second t : Target} {before after : List Target}
    {e : PlanError} (hsplit : [first, second] = before ++ t :: after)
    (h : TargetFault mapper before t e) :
    TargetFault mapper [] first e ∨ TargetFault mapper [first] second e := by
  have hfault : ∃ before t after, [first, second] = before ++ t :: after ∧
      TargetFault mapper before t e := ⟨before, t, after, hsplit, h⟩
  rcases exists_split_cons_iff.mp hfault with hfirst | hrest
  · exact Or.inl hfirst
  · rcases exists_split_cons_iff.mp hrest with hsecond | ⟨before, t, after, hnil, -⟩
    · exact Or.inr hsecond
    · simp at hnil

theorem Finds.fault_of_program {program : Target} {e : PlanError}
    (h : l.Finds t here ⟨l.name, l.sourceDir, .primary⟩ program)
    (hfault : TargetFault l.objectMapper [] program e) :
    FirstSourceFault l.objectMapper (allSources []) program.sources e := by
  rcases hfault with ⟨hu, -⟩ | ⟨-, hsource⟩ | ⟨-, -, hkind, -⟩
  · cases hu
  · exact hsource
  · rw [h.1] at hkind
    cases hkind

/-- The tests may also have the program's name, but what they reuse is known. -/
theorem Finds.fault_of_tests {program tests : Target} {e : PlanError}
    (hprogram : program.spec.name = l.name)
    (h : l.Finds t here ⟨l.testName, l.testDir, .secondary l.name⟩ tests)
    (hfault : TargetFault l.objectMapper [program] tests e) :
    (l.name ≈ l.testName ∧ e = .duplicateTarget l.testName) ∨
      FirstSourceFault l.objectMapper (allSources [program]) tests.sources e := by
  rcases hfault with ⟨hu, hname⟩ | ⟨-, hsource⟩ | ⟨-, -, hkind, hnone⟩
  · obtain rfl := List.mem_singleton.mp hu
    rw [hprogram, h.1] at hname
    exact Or.inl ⟨hname, by rw [h.1]⟩
  · exact Or.inr hsource
  · rw [h.1] at hkind
    obtain rfl := TargetKind.secondary.inj hkind
    exact absurd (Path.equiv_def.mpr (congrArg Path.components hprogram))
      (hnone program List.mem_cons_self)

/-- What can be wrong: the tests have the program's name, a source has a fault or a target is an
object. -/
theorem Assembles.fault_cases {e : PlanError} (h : l.Assembles t here (.error e)) :
    (l.name ≈ l.testName ∧ e = .duplicateTarget l.testName) ∨
      (∃ spec target, l.Finds t here spec target ∧ ∃ earlier,
        FirstSourceFault l.objectMapper earlier target.sources e) ∨
      ∃ target, e = .targetShadowsObject target := by
  obtain ⟨program, tests, hprogram, htests, herror⟩ := h.exists_targets
  have hname : program.spec.name = l.name := by rw [hprogram.1]
  rcases Plan.firstFault_of_error herror with
    ⟨hsplit, -, hfault⟩ | ⟨-, -, -, -⟩ | ⟨-, -, hprimary⟩
  · rcases fault_of_pair hsplit hfault with hfault | hfault
    · exact Or.inr (Or.inl ⟨_, program, hprogram, _, hprogram.fault_of_program hfault⟩)
    · rcases htests.fault_of_tests hname hfault with hclash | hsource
      · exact Or.inl hclash
      · exact Or.inr (Or.inl ⟨_, tests, htests, _, hsource⟩)
  · exact Or.inr (Or.inr ⟨_, rfl⟩)
  · exact absurd (by rw [hprogram.1]) (hprimary program List.mem_cons_self)

theorem Finds.ne_noFileName {spec : TargetSpec} {target : Target} (h : l.Finds t here spec target)
    (hwell : t.WellNamed) (hthere : t.directoryAt here l.root.bytes ≠ none)
    {earlier : List SourceFile} {e : PlanError}
    (hfault : FirstSourceFault l.objectMapper earlier target.sources e) (s : Path) :
    e ≠ .unmapped (.noFileName s) := by
  rintro rfl
  obtain ⟨before, source, after, hsplit, -, hsource⟩ := hfault
  have hs : source ∈ target.sources := hsplit ▸ List.mem_append_right _ List.mem_cons_self
  cases hsource with
  | unmapped hmap => exact map_ne_noFileName_of_discover hwell hthere h.2 hs s hmap

/-- A plan that is made builds the program by default, and links the program and the tests. -/
theorem Assembles.plan_cases {p : Plan} (h : l.Assembles t here (.ok p)) :
    ¬ l.name ≈ l.testName ∧ p.defaultTarget = l.name ∧
      ∃ program tests, p.linkEdges = [program, tests] ∧ program.output = l.name ∧
        tests.output = l.testName := by
  obtain ⟨program, tests, hprogram, htests, hplan⟩ := h.exists_targets
  obtain ⟨a, hc, hfinish⟩ := Plan.assemble_covers hplan
  obtain ⟨-, first, hfirst, rfl⟩ := Assembly.finish_cases hfinish
  have hkind : program.spec.kind = .primary := by rw [hprogram.1]
  have hdefault : first = program := by
    have hhead : [program, tests].find? (fun t => decide (t.spec.kind = .primary)) = some program :=
      List.find?_cons_of_pos (decide_eq_true hkind)
    exact Option.some.inj (hfirst.symm.trans hhead)
  have hapart : ¬ program.spec.name ≈ tests.spec.name :=
    (List.pairwise_cons.mp hc.names).1 tests List.mem_cons_self
  obtain ⟨e, rest, hedges, hprogramOutput, hrest⟩ := List.map_eq_cons_iff.mp hc.outputs
  obtain ⟨f, rest, rfl, htestsOutput, hnil⟩ := List.map_eq_cons_iff.mp hrest
  obtain rfl := List.map_eq_nil_iff.mp hnil
  have hname : program.spec.name = l.name := by rw [hprogram.1]
  have htestName : tests.spec.name = l.testName := by rw [htests.1]
  rw [hname, htestName] at hapart
  exact ⟨hapart, hdefault ▸ hname, e, f, hedges, hprogramOutput.trans hname,
    htestsOutput.trans htestName⟩

end Layout

/-! ### What settings can cause -/

namespace Options

/-- What comes of a plan that is asked for by settings: no error that the program itself would be
to blame for, and no other targets than the two of the settings. -/
structure Configured (o : Options) (r : Except PlanError Plan) : Prop where
  /-- What a target reuses is known. -/
  reuses : ∀ target reused, r ≠ .error (.unknownTarget target reused)
  /-- There is a target to build by default. -/
  primary : r ≠ .error .noPrimaryTarget
  /-- Every source has a name. -/
  named : ∀ s, r ≠ .error (.unmapped (.noFileName s))
  /-- A target is declared again only if program and tests are given one name. -/
  declared : ∀ target, r = .error (.duplicateTarget target) →
    target = ⟨o.testName⟩ ∧ (⟨o.name⟩ : Path) ≈ ⟨o.testName⟩
  /-- A plan is for a program and for tests with other names, and the program is its default. -/
  planned : ∀ p, r = .ok p → ¬ (⟨o.name⟩ : Path) ≈ ⟨o.testName⟩ ∧ p.defaultTarget = ⟨o.name⟩ ∧
    ∃ program tests, p.linkEdges = [program, tests] ∧ program.output = ⟨o.name⟩ ∧
      tests.output = ⟨o.testName⟩

/-- Whatever is found, the settings make a plan or are to blame. -/
theorem configured_of_assembles (o : Options) {root : Path} {t : FileTree} {here : Location}
    (hwell : t.WellNamed) (hroot : t.directoryAt here root.bytes ≠ none)
    {r : Except PlanError Plan} (h : (Layout.ofOptions o root).Assembles t here r) :
    o.Configured r := by
  cases r with
  | ok p =>
      have hplan := h.plan_cases
      refine ⟨nofun, nofun, nofun, nofun, fun q hq => ?_⟩
      obtain rfl := Except.ok.inj hq
      exact hplan
  | error e =>
      rcases h.fault_cases with
        ⟨hsame, rfl⟩ | ⟨spec, target, hfinds, earlier, hfault⟩ | ⟨target, rfl⟩
      · refine ⟨nofun, nofun, nofun, fun target htarget => ?_, nofun⟩
        obtain rfl := PlanError.duplicateTarget.inj (Except.error.inj htarget)
        exact ⟨rfl, hsame⟩
      · have hnamed := hfinds.ne_noFileName hwell hroot hfault
        obtain ⟨before, s, after, -, -, hsource⟩ := hfault
        cases hsource with
        | unmapped hmap =>
            exact ⟨nofun, nofun, fun s he => hnamed s (Except.error.inj he), nofun, nofun⟩
        | collides => exact ⟨nofun, nofun, nofun, nofun, nofun⟩
      · exact ⟨nofun, nofun, nofun, nofun, nofun⟩

/-- **No settings cause an error that the program is to blame for.**  Whatever the settings are,
and whatever the package lookups leave, as long as the root is a directory when its sources are
looked for: what is generated comes of a plan for the two targets of the settings, or of an error
that the files or the two names cause. -/
theorem generate_configured (o : Options) (source : PackageSource) (t : FileTree) (here : Location)
    (root : Path) {out : Logged RunError Text} {u : FileTree}
    (h : (Layout.ofOptions o root).generate o source t here = (out, u)) (hwell : u.WellNamed)
    (hroot : u.directoryAt here root.bytes ≠ none) :
    (∀ r, (Layout.ofOptions o root).Assembles u here r → o.Configured r) ∧
      (∀ e, out.result = .error (.plan e) →
        (Layout.ofOptions o root).Assembles u here (.error e)) ∧
      ∀ text, out.result = .ok text → ∃ p c,
        (Layout.ofOptions o root).Assembles u here (.ok p) ∧ BuildFile.render p c = .ok text := by
  refine ⟨fun r hr => configured_of_assembles o hwell hroot hr, fun e he => ?_, fun text ht => ?_⟩
  · obtain ⟨c, hdescribe⟩ := Layout.exists_describe_of_plan_error h he
    exact Layout.describe_eq_plan_error_iff.mp hdescribe
  · obtain ⟨c, hdescribe⟩ := Layout.exists_describe_of_text h ht
    obtain ⟨targets, hfinds, p, hplan, hrender⟩ := Layout.describe_eq_ok_iff.mp hdescribe
    exact ⟨p, c, ⟨targets, hfinds, hplan⟩, hrender⟩

def tidyPlan : Plan :=
  ⟨[⟨"src/main.cc", "src/main.o"⟩], [⟨"app", ["src/main.o"]⟩, ⟨"tests/run", []⟩], "app"⟩

theorem generate_configured_tidyProject :
    ∃ out, (Layout.ofOptions {} "/p").generate {} freePackages.source tidyProject projectPlace =
        (out, tidyProject) ∧ tidyProject.WellNamed ∧
      tidyProject.directoryAt projectPlace (Path.bytes "/p") ≠ none ∧
      (Layout.ofOptions {} "/p").Assembles tidyProject projectPlace (.ok tidyPlan) ∧
      ({} : Options).Configured (.ok tidyPlan) := by
  have hgenerate : (Layout.ofOptions {} "/p").generate {} freePackages.source tidyProject
      projectPlace = (_, tidyProject) := rfl
  have hthere : tidyProject.directoryAt projectPlace (Path.bytes "/p") ≠ none := by decide +kernel
  have hplan : (Layout.ofOptions {} "/p").Assembles tidyProject projectPlace (.ok tidyPlan) :=
    ⟨[⟨⟨"app", "src", .primary⟩, [⟨"/p/src/main.cc"⟩]⟩,
        ⟨⟨"tests/run", "tests", .secondary "app"⟩, []⟩],
      .cons ⟨rfl, by decide +kernel⟩ (.cons ⟨rfl, by decide +kernel⟩ .nil), rfl⟩
  obtain ⟨hconfigured, -, -⟩ := generate_configured {} freePackages.source tidyProject projectPlace
    "/p" hgenerate wellNamed_tidyProject hthere
  exact ⟨_, hgenerate, wellNamed_tidyProject, hthere, hplan, hconfigured _ hplan⟩

-- Two spellings of one name are one target.
example : let l := Layout.ofOptions { testName := "app//." } "/p"
    Plan.assemble (l.targets.map fun spec => ⟨spec, []⟩) l.objectMapper l.entryPoint =
      .error (.duplicateTarget "app//.") := rfl

end Options
end NinjaPlan
