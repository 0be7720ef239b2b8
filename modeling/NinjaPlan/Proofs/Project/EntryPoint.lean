import NinjaPlan.Proofs.Files.Spelling
import NinjaPlan.Proofs.Plan.Inputs
import NinjaPlan.Proofs.Plan.Order
import NinjaPlan.Proofs.Project.Again

/-! # The entry point and the tests

The test harness links the program's objects but for the entry point's.  It also links the objects
of its own sources, and these are not looked at for an entry point.  A source of the program is one
of the tests' own exactly if both are searched in one directory, however the directory is spelled
for either (`exists_equiv_of_discover`); everywhere else the sources differ already in the directory
above them.

Hence the harness links the entry point's object in projects that keep program and tests in one
directory, and in no others (`Options.linksEntryPoint_iff`). -/

namespace NinjaPlan

/-! ### One directory under two spellings -/

section discover

variable {t : FileTree} {here : Location} {root subdir other : Path} {extensions : List Text}
  {found found' : List SourceFile}

theorem SourceFile.hasExtension_eq_of_equiv {p q : Path} (h : p ≈ q) (extensions : List Text) :
    hasExtension ⟨p⟩ extensions = hasExtension ⟨q⟩ extensions := by
  have hcomp := Path.equiv_def.mp h
  unfold hasExtension Path.extension Path.fileName
  rw [hcomp]

/-- What is found in a directory is found in it under every spelling that leads there. -/
theorem exists_equiv_of_discover (hwell : t.WellNamed) (hroot : root.text ≠ [])
    (hsame : sourceDirectory root subdir ≈ sourceDirectory root other)
    (hthere : t.directoryAt here (sourceDirectory root other).bytes ≠ none)
    (h : (discover t here root subdir extensions).result = .ok found)
    (h' : (discover t here root other extensions).result = .ok found') {s : SourceFile}
    (hs : s ∈ found) : ∃ v ∈ found', v.path ≈ s.path := by
  rcases discover_eq_ok_iff.mp h with ⟨-, rfl⟩ | ⟨loc, hloc, hselect⟩
  · cases hs
  rcases discover_eq_ok_iff.mp h' with ⟨hnone, -⟩ | ⟨loc', hloc', hselect'⟩
  · exact absurd hnone hthere
  obtain rfl := FileTree.directoryAt_unique hsame hloc hloc'
  obtain ⟨-, rfl⟩ := selectSources_eq_ok_iff.mp hselect
  obtain ⟨-, rfl⟩ := selectSources_eq_ok_iff.mp hselect'
  obtain ⟨item, hitem, hsource⟩ := List.mem_filterMap.mp hs
  unfold sourceOf at hsource
  split at hsource
  · next name hkind hdecode =>
      dsimp only at hsource
      split_ifs at hsource with hext
      obtain rfl := Option.some.inj hsource
      have hname := hwell.isName hitem hdecode
      have hequiv : (sourceDirectory root other).join ⟨name⟩ ≈
          (sourceDirectory root subdir).join ⟨name⟩ := by
        have hrel := Path.isAbsolute_of_isName hname
        have hne : ∀ dir, (sourceDirectory root dir).text ≠ [] := fun dir =>
          Path.join_text_ne_nil hroot dir.normalize
        rw [Path.equiv_def, Path.components_join (hne other) hrel,
          Path.components_join (hne subdir) hrel, Path.equiv_def.mp hsame]
      refine ⟨⟨(sourceDirectory root other).join ⟨name⟩⟩,
        List.mem_filterMap.mpr ⟨item, hitem, ?_⟩, hequiv⟩
      rw [sourceOf_of_file hkind hdecode, SourceFile.hasExtension_eq_of_equiv hequiv, if_pos hext]
  · cases hsource

/-- Sources that are the same are found in one directory. -/
theorem sourceDirectory_equiv_of_discover (hwell : t.WellNamed) (hroot : root.text ≠ [])
    (h : (discover t here root subdir extensions).result = .ok found)
    (h' : (discover t here root other extensions).result = .ok found') {s v : SourceFile}
    (hs : s ∈ found) (hv : v ∈ found') (hsame : v.path ≈ s.path) :
    sourceDirectory root subdir ≈ sourceDirectory root other ∧
      t.directoryAt here (sourceDirectory root other).bytes ≠ none := by
  obtain ⟨-, -, -, -, -, name, -, hcomponents⟩ := exists_item_of_discover hwell hroot h hs
  obtain ⟨loc, hloc, -, -, -, name', -, hcomponents'⟩ := exists_item_of_discover hwell hroot h' hv
  rw [Path.equiv_def, hcomponents, hcomponents'] at hsame
  obtain ⟨habove, -⟩ := List.append_inj' hsame rfl
  exact ⟨Path.equiv_def.mpr habove.symm, by simp [hloc]⟩

end discover

/-! ### What the tests link -/

namespace Layout

variable {l : Layout} {t : FileTree} {here : Location} {program tests : Target} {p : Plan}
  {text : Text}

/-- How a text comes about: from the sources that are found for the program and for its tests, and
from the plan that is made of them. -/
structure Describes (l : Layout) (t : FileTree) (here : Location) (program tests : Target)
    (p : Plan) (text : Text) : Prop where
  findsProgram : l.Finds t here ⟨l.name, l.sourceDir, .primary⟩ program
  findsTests : l.Finds t here ⟨l.testName, l.testDir, .secondary l.name⟩ tests
  planned : Plan.assemble [program, tests] l.objectMapper l.entryPoint = .ok p
  rendered : ∃ c, BuildFile.render p c = .ok text

theorem exists_describes {o : Options} {answers : PackageAnswers}
    (h : (l.generate o answers.source t here).1.result = .ok text) :
    ∃ program tests p, l.Describes t here program tests p text := by
  obtain ⟨c, -, hdescribe⟩ := generate_eq_ok_iff.mp h
  obtain ⟨found, hfinds, p, hplan, htext⟩ := describe_eq_ok_iff.mp hdescribe
  obtain ⟨program, tests, hprogram, htests, rfl⟩ := forall₂_targets_iff.mp hfinds
  exact ⟨program, tests, p, hprogram, htests, hplan, c, htext⟩

/-- Program and tests are searched in one directory. -/
def SharesDirectory (l : Layout) (t : FileTree) (here : Location) : Prop :=
  sourceDirectory l.root l.sourceDir ≈ sourceDirectory l.root l.testDir ∧
    t.directoryAt here (sourceDirectory l.root l.testDir).bytes ≠ none

namespace Describes

theorem exists_own_iff (h : l.Describes t here program tests p text) (hwell : t.WellNamed)
    (hroot : l.root.text ≠ []) {s : SourceFile} (hs : s ∈ program.sources) :
    (∃ v ∈ tests.sources, v.path ≈ s.path) ↔ l.SharesDirectory t here := by
  constructor
  · rintro ⟨v, hv, hsame⟩
    exact sourceDirectory_equiv_of_discover hwell hroot h.findsProgram.2 h.findsTests.2 hs hv hsame
  · rintro ⟨hsame, hthere⟩
    exact exists_equiv_of_discover hwell hroot hsame hthere h.findsProgram.2 h.findsTests.2 hs

/-- Of the program's entry point the tests link the object exactly if it is a source of their
own. -/
theorem links_entryPoint_iff (h : l.Describes t here program tests p text) :
    ∃ e, p.linkEdge l.testName = some e ∧
      ∀ s ∈ program.sources, s.stem = some l.entryPoint → ∃ o, l.objectMapper.HasObject s o ∧
        ((∃ i ∈ e.inputs, o ≈ i) ↔ ∃ v ∈ tests.sources, v.path ≈ s.path) := by
  obtain ⟨a, hc, hfinish⟩ := Plan.assemble_covers h.planned
  obtain ⟨-, first, -, rfl⟩ := Assembly.finish_cases hfinish
  obtain ⟨e, he, hname, hlinks⟩ := hc.linked [program] tests [] rfl
  have htests : l.testName ≈ e.output := by rw [hname, h.findsTests.1]
  refine ⟨e, Plan.linkEdge_eq_some hc.outputs_distinct he htests, fun s hs hstem => ?_⟩
  obtain ⟨m, hm⟩ := hc.exists_map List.mem_cons_self hs
  have ho : l.objectMapper.HasObject s m.object := ⟨m, hm, rfl⟩
  refine ⟨m.object, ho, ?_⟩
  constructor
  · rintro ⟨i, hi, hoi⟩
    have hsplit : [program, tests] = [program] ++ tests :: [] := rfl
    exact hc.mem_sources_of_entryPoint hsplit hlinks List.mem_cons_self hs hstem ho hi hoi
  · rintro ⟨v, hv, hsame⟩
    obtain ⟨n, hn⟩ := hc.exists_map (List.mem_cons_of_mem _ List.mem_cons_self) hv
    obtain ⟨i, hi, hni⟩ := hlinks.complete (List.pairwise_singleton _ _)
      (Or.inl ⟨v, hv, n, hn, rfl⟩)
    have hobject := ObjectMapper.object_equiv hn hm (ObjectMapper.source_equiv_of_path hn hm hsame)
    exact ⟨i, hi, Path.equiv_symm (Path.equiv_trans hni hobject)⟩

end Describes
end Layout

namespace Options

/-- **The entry point stays out of the tests**, unless they are kept with the program.  Whenever
there is a text, there is one link edge for the tests in its plan, and every source of the program
whose stem is that of the entry point has an object; the tests link this object exactly if they are
searched for in the program's own directory. -/
theorem linksEntryPoint_iff (o : Options) (answers : PackageAnswers) {t : FileTree}
    (hwell : t.WellNamed) (here : Location) {root : Path} {text : Text}
    (h : (o.prepare answers.source t here).1 = .ok (root, text)) :
    ∃ program tests p, (Layout.ofOptions o root).Describes t here program tests p text ∧
      ∃ e, p.linkEdge ⟨o.testName⟩ = some e ∧
        ∀ s ∈ program.sources, s.stem = some o.entryPoint →
          ∃ object, (Layout.ofOptions o root).objectMapper.HasObject s object ∧
            ((∃ i ∈ e.inputs, object ≈ i) ↔ (Layout.ofOptions o root).SharesDirectory t here) := by
  obtain ⟨hlocated, htext, -⟩ := prepare_cases_of_ok h
  have hroot := root_text_ne_nil hlocated
  obtain ⟨program, tests, p, hdescribes⟩ := Layout.exists_describes htext
  obtain ⟨e, he, hlinks⟩ := hdescribes.links_entryPoint_iff
  refine ⟨program, tests, p, hdescribes, e, he, fun s hs hstem => ?_⟩
  obtain ⟨object, hobject, hiff⟩ := hlinks s hs hstem
  exact ⟨object, hobject, hiff.trans (hdescribes.exists_own_iff hwell hroot hs)⟩

theorem wellNamed_tidyProject : tidyProject.WellNamed := by
  unfold FileTree.WellNamed
  decide

/-- In a project that keeps its tests elsewhere, or has none, nothing of the entry point is linked
into them. -/
theorem linksEntryPoint_tidyProject :
    ∃ root text, (({} : Options).prepare freePackages.source tidyProject projectPlace).1 =
        .ok (root, text) ∧
      ∃ program tests p,
        (Layout.ofOptions {} root).Describes tidyProject projectPlace program tests p text ∧
        program.sources = [⟨"/p/src/main.cc"⟩] ∧
        ∃ e, p.linkEdge "tests/run" = some e ∧
          ∀ s ∈ program.sources, s.stem = some "main" →
            ∃ object, (Layout.ofOptions {} root).objectMapper.HasObject s object ∧
              ¬ ∃ i ∈ e.inputs, object ≈ i := by
  have hroot : ({} : Options).locateRoot tidyProject projectPlace = .ok "/p" := by decide +kernel
  have hok : (({} : Options).prepare freePackages.source tidyProject projectPlace).1.toBool =
      true := by decide +kernel
  cases h : (({} : Options).prepare freePackages.source tidyProject projectPlace).1 with
  | error e =>
      rw [h] at hok
      cases hok
  | ok prepared =>
      obtain ⟨root, text⟩ := prepared
      obtain rfl := Except.ok.inj (hroot.symm.trans (prepare_cases_of_ok h).1)
      obtain ⟨program, tests, p, hdescribes, e, he, hlinks⟩ :=
        linksEntryPoint_iff {} freePackages wellNamed_tidyProject projectPlace h
      have hfound : (discover tidyProject projectPlace "/p" "src" ["cc"]).result =
          .ok [⟨"/p/src/main.cc"⟩] := by decide +kernel
      have hsources := Except.ok.inj (hdescribes.findsProgram.2.symm.trans hfound)
      refine ⟨_, text, rfl, program, tests, p, hdescribes, hsources, e, he, fun s hs hstem => ?_⟩
      obtain ⟨object, hobject, hiff⟩ := hlinks s hs hstem
      have hapart : ¬ (Layout.ofOptions {} "/p").SharesDirectory tidyProject projectPlace :=
        fun hshares => absurd hshares.1 (by decide)
      exact ⟨object, hobject, mt hiff.mp hapart⟩

/-- The flags of a project that says nothing of them. -/
def plainFlags : Text := "-Wall -Wextra -std=c++17 -I/p/src -fPIC -O0 -g -DDEBUG"

/-- The build file of a project whose tests are looked for beside the program. -/
def sharedFile : Text :=
  (["rule cxx", "  depfile = $out.d",
    "  command = c++ " ++ plainFlags ++ " -MMD -MF $out.d -c $in -o $out", "", "rule link",
    "  command = c++ $in " ++ plainFlags ++ " -o $out", "", "build src/main.o: cxx src/main.cc", "",
    "build app: link src/main.o", "build tests/run: link src/main.o", "", "default app"] :
      List Text).flatMap (· ++ ['\n'])

/-- With the program's directory searched for tests, these link the entry point. -/
theorem linksEntryPoint_sharedDirectory :
    ∃ o, Options.parse ["--test-dir", "src"] = .ok o ∧
      (o.prepare freePackages.source tidyProject projectPlace).1 = .ok ("/p", sharedFile) ∧
      ∃ program tests p,
        (Layout.ofOptions o "/p").Describes tidyProject projectPlace program tests p sharedFile ∧
        p.linkEdge ⟨o.testName⟩ = some ⟨"tests/run", ["src/main.o"]⟩ ∧
        ⟨"/p/src/main.cc"⟩ ∈ program.sources ∧
        SourceFile.stem ⟨"/p/src/main.cc"⟩ = some o.entryPoint ∧
        (Layout.ofOptions o "/p").objectMapper.HasObject ⟨"/p/src/main.cc"⟩ "src/main.o" := by
  have hrender : BuildFile.render ⟨[⟨"src/main.cc", "src/main.o"⟩],
        [⟨"app", ["src/main.o"]⟩, ⟨"tests/run", ["src/main.o"]⟩], "app"⟩
      ⟨"c++", "c++", plainFlags ++ " -MMD -MF $out.d", plainFlags, defaultDepFlags, .debug⟩ =
        .ok sharedFile := by decide +kernel
  exact ⟨{ testDir := "src" }, rfl, by decide +kernel,
    ⟨⟨"app", "src", .primary⟩, [⟨"/p/src/main.cc"⟩]⟩,
    ⟨⟨"tests/run", "src", .secondary "app"⟩, [⟨"/p/src/main.cc"⟩]⟩, _,
    ⟨⟨rfl, by decide +kernel⟩, ⟨rfl, by decide +kernel⟩, rfl, _, hrender⟩, rfl,
    List.mem_cons_self, rfl, _, rfl, rfl⟩

end Options
end NinjaPlan
