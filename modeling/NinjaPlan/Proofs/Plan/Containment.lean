import NinjaPlan.Proofs.Listing
import NinjaPlan.Proofs.Plan.Edges

/-! # Sources inside and outside the root

Whether a source is outside the root is decided on its path as it is written, and `..` is a
component like any other there.  So a path that begins with the root and leaves it again is
accepted: what an accepted source is below the root need not come back to it
(`Path.ReturnsBelow`).  In particular nothing that is found in a relative subdirectory is refused,
wherever the subdirectory leads (`ObjectMapper.map_of_discover`).  Only without `..` does the path
tell where the source is.

`ObjectMapper.Admission` collects what this means for mapping, for finding and for planning. -/

namespace NinjaPlan

/-- Which sources a mapper takes, and which of these are below its root. -/
structure ObjectMapper.Admission (mapper : ObjectMapper) : Prop where
  /-- A source is refused as outside the root if its path does not begin with the root. -/
  refused : ∀ s, mapper.map s = .error (.outsideRoot s.path mapper.root) ↔
    ¬ mapper.root.components <+: s.path.components
  /-- A source that is taken leads below the root if it returns below it. -/
  taken : ∀ s m, mapper.map s = .ok m →
    (s.path.normalize.Below mapper.root ↔ m.source.ReturnsBelow mapper.root)
  /-- Without `..` a source is refused exactly if it leads elsewhere. -/
  plain : ∀ s : SourceFile, .parent ∉ s.path.components →
    (mapper.map s = .error (.outsideRoot s.path mapper.root) ↔
      ¬ mapper.root.components <+: s.path.normalize.components) ∧
    ∀ m, mapper.map s = .ok m → s.path.normalize.Below mapper.root
  /-- A source that is found in a relative subdirectory is taken, and leads below the root if
  the directory that was searched does not lead out of it. -/
  found : ∀ (t : FileTree) (here : Location) (subdir : Path) (extensions : List Text)
    (sources : List SourceFile), t.WellNamed → subdir.isAbsolute = false →
    (discover t here mapper.root subdir extensions).result = .ok sources → ∀ s ∈ sources,
      (∃ m, mapper.map s = .ok m) ∧ (s.path.normalize.Below mapper.root ↔
        mapper.root.components <+: (sourceDirectory mapper.root subdir).normalize.components)
  /-- A compile edge reads a source below the root if the source returns below it. -/
  compiled : ∀ targets entryPoint p, Plan.assemble targets mapper entryPoint = .ok p →
    ∀ e ∈ p.compileEdges, ((mapper.root.join e.source).normalize.Below mapper.root ↔
      e.source.ReturnsBelow mapper.root)

namespace ObjectMapper

variable {mapper : ObjectMapper} {s : SourceFile} {m : MappedSource}

theorem below_iff_of_map (habs : mapper.root.isAbsolute = true)
    (hnormal : mapper.root.normalize ≈ mapper.root) (h : mapper.map s = .ok m) :
    s.path.normalize.Below mapper.root ↔ m.source.ReturnsBelow mapper.root := by
  obtain ⟨hrel, hinner⟩ := source_relative habs h
  refine Path.normalize_below_iff habs hnormal hrel ?_
  rw [components_of_map h, hinner]

theorem below_of_not_mem_parent (habs : mapper.root.isAbsolute = true)
    (hnormal : mapper.root.normalize ≈ mapper.root) (hplain : .parent ∉ s.path.components)
    (h : mapper.map s = .ok m) : s.path.normalize.Below mapper.root := by
  obtain ⟨-, ⟨name, hname⟩, -⟩ := map_cases h
  rw [components_of_map h] at hplain
  have hclimb : m.source.climb = 0 :=
    Path.climb_eq_zero fun hmem => hplain (List.mem_append_right _ hmem)
  rw [below_iff_of_map habs hnormal h]
  exact Path.returnsBelow_of_climb_eq_zero hclimb (Path.descent_ne_nil hname) _

theorem root_isPrefix_iff_of_not_mem_parent (habs : mapper.root.isAbsolute = true)
    (hplain : .parent ∉ s.path.components) :
    mapper.root.components <+: s.path.normalize.components ↔
      mapper.root.components <+: s.path.components := by
  cases hs : s.path.isAbsolute with
  | true => rw [Path.components_normalize, Path.normalComponents_of_not_mem_parent hs hplain]
  | false =>
      have hnot : ∀ p : Path, p.isAbsolute = false → ¬ mapper.root.components <+: p.components := by
        rintro p hp ⟨rest, hrest⟩
        rw [Bool.eq_false_iff, ne_eq, Path.isAbsolute_iff, ← hrest,
          Path.components_of_absolute habs] at hp
        exact hp rfl
      exact iff_of_false (hnot _ (s.path.isAbsolute_normalize.trans hs)) (hnot _ hs)

theorem map_of_discover (habs : mapper.root.isAbsolute = true) {t : FileTree} {here : Location}
    {subdir : Path} {extensions : List Text} {sources : List SourceFile} (hwell : t.WellNamed)
    (hsubdir : subdir.isAbsolute = false)
    (h : (discover t here mapper.root subdir extensions).result = .ok sources)
    (hs : s ∈ sources) :
    (∃ m, mapper.map s = .ok m) ∧ (s.path.normalize.Below mapper.root ↔
      mapper.root.components <+: (sourceDirectory mapper.root subdir).normalize.components) := by
  have hroot := Path.text_ne_nil_of_isAbsolute habs
  obtain ⟨name, hcomp⟩ := components_of_discover hwell hroot h hs
  refine ⟨?_, Path.normalize_below_iff_of_concat hcomp⟩
  have hdir : (sourceDirectory mapper.root subdir).components =
      mapper.root.components ++ subdir.normalize.inner :=
    Path.components_join hroot (subdir.isAbsolute_normalize.trans hsubdir)
  rw [hdir, List.append_assoc] at hcomp
  exact exists_map_of_components hcomp

/-- **A mapper takes what begins with its root.** -/
theorem admission (habs : mapper.root.isAbsolute = true)
    (hnormal : mapper.root.normalize ≈ mapper.root) : mapper.Admission := by
  refine
    { refused := fun s => map_eq_outsideRoot_iff
      taken := fun s m h => below_iff_of_map habs hnormal h
      plain := fun s hplain => ⟨?_, fun m h => below_of_not_mem_parent habs hnormal hplain h⟩
      found := fun t here subdir extensions sources hwell hsubdir h s hs =>
        map_of_discover habs hwell hsubdir h hs
      compiled := ?_ }
  · rw [map_eq_outsideRoot_iff, root_isPrefix_iff_of_not_mem_parent habs hplain]
  · intro targets entryPoint p h e he
    obtain ⟨a, hc, hfinish⟩ := Plan.assemble_covers h
    obtain ⟨-, first, -, rfl⟩ := Assembly.finish_cases hfinish
    obtain ⟨t, -, s, -, hm⟩ := hc.asked e he
    obtain ⟨hrel, -⟩ := source_relative habs hm
    have hroot := Path.text_ne_nil_of_isAbsolute habs
    exact Path.normalize_below_iff habs hnormal hrel (Path.components_join hroot hrel)

theorem admission_harnessMapper :
    harnessMapper.root.isAbsolute = true ∧ harnessMapper.root.normalize ≈ harnessMapper.root ∧
      harnessMapper.Admission :=
  ⟨rfl, rfl, admission rfl rfl⟩

/-! ### A source beside the root -/

/-- The source `x.cc` of a directory beside the root is found through `../q`, taken and compiled. -/
theorem taken_beside_root :
    selectSources (sourceDirectory "/p" "../q") ["cc"] [⟨Utf8.encode "x.cc", .file⟩] =
        .ok [⟨"/p/../q/x.cc"⟩] ∧
      (Path.normalize "/p/../q/x.cc" = "/q/x.cc" ∧ ¬ Path.Below "/q/x.cc" "/p") ∧
      harnessMapper.map ⟨"/p/../q/x.cc"⟩ = .ok ⟨"../q/x.cc", "../q/x.o"⟩ ∧
      Plan.assemble [⟨⟨"app", "../q", .primary⟩, [⟨"/p/../q/x.cc"⟩]⟩] harnessMapper "main" =
        .ok ⟨[⟨"../q/x.cc", "../q/x.o"⟩], [⟨"app", ["../q/x.o"]⟩], "app"⟩ := by
  refine ⟨rfl, ⟨rfl, ?_⟩, rfl, rfl⟩
  have hprefix : ¬ Path.components "/p" <+: Path.components "/q/x.cc" := by decide
  rintro ⟨rest, -, h⟩
  exact hprefix ⟨rest, h.symm⟩

end ObjectMapper
end NinjaPlan
