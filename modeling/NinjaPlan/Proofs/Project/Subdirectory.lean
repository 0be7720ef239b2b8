import NinjaPlan.Proofs.Plan.Collision
import NinjaPlan.Proofs.Plan.Edges
import NinjaPlan.Proofs.Project.Again

/-! # Subdirectories and their spellings

A source is found by joining a name to a directory that was itself joined to the root, and mapping
takes the root off again.  What remains is the name in the normal form of the subdirectory, letter
by letter: joining associates (`Path.join_join`), no segment of a normal path is blank
(`Path.segments_normalize_join`), and so there is nothing to trim (`Path.trimmed_of_segments`).
Exchanging the extension leaves the directories alone, and the object is the name of an object in
the same place (`ObjectMapper.map_join_normalize`).

So a subdirectory is as good as its normal form (`ObjectMapper.placesSubdirectory`). -/

namespace NinjaPlan

/-! ### Names in a normal directory -/

namespace Path

theorem isAbsolute_join {d q : Path} (hd : d.isAbsolute = false) (hq : q.isAbsolute = false) :
    (d.join q).isAbsolute = false := by
  by_cases hempty : d.text = []
  · rwa [join_of_empty hempty]
  · have hne : d.components ≠ [] := mt components_eq_nil_iff.mp hempty
    rw [Bool.eq_false_iff, ne_eq, isAbsolute_iff] at hd ⊢
    rwa [components_join hempty hq, List.head?_append_of_ne_nil _ hne]

theorem join_join {d q : Path} (hd : d.isAbsolute = false) (hq : q.isAbsolute = false) (p : Path) :
    (p.join d).join q = p.join (d.join q) := by
  by_cases hp : p.text = []
  · rw [join_of_empty hp, join_of_empty hp]
  · obtain ⟨a, -, hjoin⟩ := exists_join_text hp
    rw [hjoin d hd, hjoin _ (isAbsolute_join hd hq)]
    by_cases hempty : d.text = []
    · rw [join_of_empty hempty, hempty, join, hq]
      simp
    · have hlast : ('/' :: d.text).getLast? = d.text.getLast? := List.getLast?_cons_of_ne_nil hempty
      unfold join
      by_cases hslash : d.text.getLast? = some '/' <;> simp [hq, hempty, hlast, hslash]

theorem join_injective {p q : Path} (hp : p.isAbsolute = false) (hq : q.isAbsolute = false)
    {dir : Path} (h : dir.join p = dir.join q) : p = q := by
  by_cases hdir : dir.text = []
  · rwa [join_of_empty hdir, join_of_empty hdir] at h
  · obtain ⟨d, -, hjoin⟩ := exists_join_text hdir
    rw [hjoin p hp, hjoin q hq] at h
    exact congrArg Path.mk (List.cons.inj (List.append_cancel_left (Path.mk.inj h))).2

theorem trimmed_of_segments {p : Path} (h : ∀ s ∈ p.segments, blank s = false) : p.trimmed = p := by
  have hkeep : ∀ segs : List Text, (∀ s ∈ segs, blank s = false) → segs.dropWhile blank = segs := by
    intro segs hsegs
    cases segs with
    | nil => rfl
    | cons s segs =>
        exact List.dropWhile_cons_of_neg (Bool.eq_false_iff.mp (hsegs s List.mem_cons_self))
  have hreverse : ∀ s ∈ p.segments.reverse, blank s = false := fun s hs =>
    h s (List.mem_reverse.mp hs)
  rw [trimmed, trimBlank, hkeep _ h, dropBlankEnd, hkeep _ hreverse, List.reverse_reverse]
  exact congrArg Path.mk (Text.intercalate_pieces '/' p.text)

theorem blank_text_of_spelled {c : Component} (h : c.Spelled) : blank c.text = false := by
  cases hblank : blank c.text with
  | false => rfl
  | true => exact nomatch (ofSegment_of_blank hblank).symm.trans h.1

/-- A name in a normal directory stands behind the components of the directory. -/
theorem segments_normalize_join {p : Path} (hp : p.isAbsolute = false) {name : Text}
    (hname : IsName name) : (p.normalize.join ⟨name⟩).segments =
      p.normalComponents.map Component.text ++ [name] := by
  have hspelled := spelled_of_mem_normalComponents hp
  by_cases hnil : p.normalComponents = []
  · have hempty : p.normalize.text = [] := by
      rw [normalize_of_relative hp, hnil]
      rfl
    rw [join_of_empty hempty, segments_of_isName hname, hnil]
    rfl
  · have hslash : ∀ s ∈ p.normalComponents.map Component.text, '/' ∉ s :=
      List.forall_mem_map.mpr fun c hc => (hspelled c hc).2
    have hsegs : p.normalize.segments = p.normalComponents.map Component.text := by
      rw [normalize_of_relative hp]
      exact segments_joinSegments (by simpa using hnil) hslash
    have hne : p.normalize.text ≠ [] := fun hempty =>
      hnil (p.components_normalize.symm.trans (components_eq_nil_iff.mpr hempty))
    obtain ⟨d, hjoin, hd⟩ := join_text hne (isAbsolute_of_isName hname)
    rw [hjoin, segments_append_slash]
    rcases hd with hd | hd
    · have hsame : (⟨d⟩ : Path) = p.normalize := congrArg Path.mk hd.symm
      rw [hsame, hsegs, segments_of_isName hname]
    -- A slash at the end would leave an empty segment.
    · have hmem : [] ∈ p.normalComponents.map Component.text := by
        have hpath : p.normalize = ⟨d ++ '/' :: []⟩ := congrArg Path.mk hd
        rw [← hsegs, hpath, segments_append_slash]
        exact List.mem_append_right _ List.mem_cons_self
      obtain ⟨c, hc, htext⟩ := List.mem_map.mp hmem
      exact nomatch (blank_text_of_spelled (hspelled c hc)).symm.trans (congrArg blank htext)

theorem blank_of_mem_segments_normalize_join {p : Path} (hp : p.isAbsolute = false) {name : Text}
    (hname : IsName name) : ∀ s ∈ (p.normalize.join ⟨name⟩).segments, blank s = false := by
  rw [segments_normalize_join hp hname]
  refine List.forall_mem_append.mpr ⟨?_, List.forall_mem_singleton.mpr hname.2.1⟩
  exact List.forall_mem_map.mpr fun c hc =>
    blank_text_of_spelled (spelled_of_mem_normalComponents hp c hc)

theorem join_withExtension_of_isName {name ext : Text} (h : IsName name) (hext : '/' ∉ ext)
    (dir : Path) : (dir.join ⟨name⟩).withExtension ext = dir.join ⟨changeExtension name ext⟩ := by
  have hsegs : segments ⟨name⟩ = [] ++ [name] := segments_of_isName h
  rw [join_withExtension hsegs h.2.1 h.2.2 (isAbsolute_of_isName h) dir hext,
    withExtension_of_segments hsegs h.2.1 h.2.2]
  rfl

end Path

/-! ### Mapping -/

/-- A name in a normal directory below the root is mapped to the same name in that directory, and
its object stands in that directory too. -/
theorem ObjectMapper.map_join_normalize {mapper : ObjectMapper} {subdir : Path} {name : Text}
    (hroot : mapper.root.isAbsolute = true) (hrel : subdir.isAbsolute = false)
    (hname : Path.IsName name) :
    mapper.map ⟨mapper.root.join (subdir.normalize.join ⟨name⟩)⟩ =
      .ok ⟨subdir.normalize.join ⟨name⟩, mapper.objectDir.join
        (subdir.normalize.join ⟨objectName (Path.splitName name).1⟩)⟩ := by
  have hinside : (subdir.normalize.join ⟨name⟩).isAbsolute = false :=
    Path.isAbsolute_join (subdir.isAbsolute_normalize.trans hrel) (Path.isAbsolute_of_isName hname)
  have hsegs := Path.segments_normalize_join hrel hname
  have hfile := Path.fileName_of_segments hsegs hname.2.1 hname.2.2
  have hslash : '/' ∉ objectExtension := by decide
  unfold map
  simp only [Path.stripPrefix?_join hroot hinside,
    Path.trimmed_of_segments (Path.blank_of_mem_segments_normalize_join hrel hname), hfile]
  rw [Path.join_withExtension hsegs hname.2.1 hname.2.2 hinside _ hslash,
    Path.join_withExtension_of_isName hname hslash, Path.changeExtension_eq hname.2.1]
  rfl

/-- What a source is mapped to that has a name in a directory below the root. -/
structure ObjectMapper.MapsIn (mapper : ObjectMapper) (dir : Path) (s : SourceFile)
    (name stem : Text) (m : MappedSource) : Prop where
  path : s.path = mapper.root.join (dir.join ⟨name⟩)
  stem_eq : s.stem = some stem
  mapped : mapper.map s = .ok m
  /-- The source has its name in the directory. -/
  source : m.source = dir.join ⟨name⟩
  /-- The object has the stem in the directory, with the extension of objects, exactly if the stem
  is not a dot. -/
  object : m.object = mapper.objectDir.join (dir.join ⟨stem ++ '.' :: objectExtension⟩) ↔
    stem ≠ ['.']
  /-- If the stem is a dot, the object is the directory above. -/
  dotted : stem = ['.'] → m.object = mapper.objectDir.join (dir.join ⟨['.', '.']⟩)

theorem ObjectMapper.exists_mapsIn {mapper : ObjectMapper} {subdir : Path} {name : Text}
    (hroot : mapper.root.isAbsolute = true) (hrel : subdir.isAbsolute = false)
    (hname : Path.IsName name) {s : SourceFile}
    (hs : s.path = mapper.root.join (subdir.normalize.join ⟨name⟩)) :
    ∃ stem m, mapper.MapsIn subdir.normalize s name stem m := by
  have hpath : s = ⟨mapper.root.join (subdir.normalize.join ⟨name⟩)⟩ := congrArg SourceFile.mk hs
  obtain ⟨above, habove⟩ := Path.segments_join mapper.root (subdir.normalize.join ⟨name⟩)
  rw [Path.segments_normalize_join hrel hname, ← List.append_assoc] at habove
  have hstem : s.stem = some (Path.splitName name).1 := by
    rw [hpath, SourceFile.stem, Path.fileStem,
      Path.fileName_of_segments habove hname.2.1 hname.2.2]
    rfl
  refine ⟨_, _, hs, hstem, hpath ▸ map_join_normalize hroot hrel hname, rfl, ?_, ?_⟩
  · have hdir := subdir.isAbsolute_normalize.trans hrel
    constructor
    · intro hobject hdot
      rw [hdot] at hobject
      have hnames := Path.join_injective (Path.isAbsolute_join hdir rfl)
        (Path.isAbsolute_join hdir rfl) hobject
      exact absurd (Path.join_injective rfl rfl hnames) (by decide)
    · intro hdot
      rw [objectName, if_neg hdot]
  · intro hdot
    rw [hdot]
    rfl

/-! ### Finding -/

theorem exists_name_of_discover {t : FileTree} {here : Location} {root subdir : Path}
    {extensions : List Text} {found : List SourceFile} (hwell : t.WellNamed)
    (h : (discover t here root subdir extensions).result = .ok found) {s : SourceFile}
    (hs : s ∈ found) :
    ∃ name, Path.IsName name ∧ s.path = (sourceDirectory root subdir).join ⟨name⟩ := by
  rcases discover_eq_ok_iff.mp h with ⟨-, rfl⟩ | ⟨loc, -, hselect⟩
  · cases hs
  · obtain ⟨item, hitem, -, name, hdecode, rfl⟩ := exists_item_of_selectSources hselect hs
    exact ⟨name, hwell.isName hitem hdecode, rfl⟩

/-- One compile edge is that of a source of a target or writes its object. -/
theorem Plan.Realizes.only_edge {p : Plan} {mapper : ObjectMapper} {targets : List Target}
    (h : p.Realizes mapper targets) {t : Target} (ht : t ∈ targets) {s : SourceFile}
    (hs : s ∈ t.sources) : ∃ m, mapper.map s = .ok m ∧ ∃ e : CompileEdge, e.Compiles m ∧
      p.compileEdges.filter (fun f => f.source ≈ m.source ∨ f.object ≈ m.object) = [e] := by
  obtain ⟨m, hm, e, he, hcompiles, honly⟩ := h.compiled t ht s hs
  refine ⟨m, hm, e, hcompiles, ?_⟩
  have hnodup : p.compileEdges.Nodup := h.objects_distinct.imp fun hne => by
    rintro rfl
    exact hne (Path.equiv_refl _)
  refine List.perm_singleton.mp
    ((List.perm_ext_iff_of_nodup (hnodup.filter _) (List.nodup_singleton e)).mpr fun f => ?_)
  rw [List.mem_filter, List.mem_singleton, decide_eq_true_iff]
  constructor
  · rintro ⟨hf, hsame⟩
    exact honly f hf hsame
  · rintro rfl
    exact ⟨he, Or.inl hcompiles.1⟩

/-- What is found in a subdirectory, and what becomes of it, is said by the normal form. -/
structure ObjectMapper.PlacesSubdirectory (mapper : ObjectMapper) (t : FileTree) (here : Location)
    (subdir : Path) (extensions : List Text) : Prop where
  /-- Every source that is found is mapped, in the place of its name in the normal form. -/
  maps : ∀ found, (discover t here mapper.root subdir extensions).result = .ok found →
    ∀ s ∈ found, ∃ name stem m, mapper.MapsIn subdir.normalize s name stem m
  /-- Another spelling with the same normal form finds the same. -/
  respelled : ∀ other : Path, other.normalize = subdir.normalize →
    discover t here mapper.root other extensions = discover t here mapper.root subdir extensions
  /-- Targets with the sources of two such spellings have the same sources, and each of these has
  one compile edge for both. -/
  shared : ∀ targets entryPoint p, Plan.assemble targets mapper entryPoint = .ok p →
    ∀ a ∈ targets, ∀ b ∈ targets, a.spec.subdir.normalize = subdir.normalize →
      b.spec.subdir.normalize = subdir.normalize →
      (discover t here mapper.root a.spec.subdir extensions).result = .ok a.sources →
      (discover t here mapper.root b.spec.subdir extensions).result = .ok b.sources →
      a.sources = b.sources ∧ ∀ s ∈ a.sources, ∃ m, mapper.map s = .ok m ∧
        ∃ e : CompileEdge, e.Compiles m ∧
          p.compileEdges.filter (fun f => f.source ≈ m.source ∨ f.object ≈ m.object) = [e]

/-- **A subdirectory is as good as its normal form.**  Every source that is found in it is mapped to
its name in the normal form, where the object stands too, and all spellings with this normal form
share sources and compile edges. -/
theorem ObjectMapper.placesSubdirectory (mapper : ObjectMapper) (t : FileTree) (here : Location)
    (subdir : Path) (extensions : List Text) (hroot : mapper.root.isAbsolute = true)
    (hwell : t.WellNamed) (hrel : subdir.normalize.isAbsolute = false) :
    mapper.PlacesSubdirectory t here subdir extensions := by
  have hrespelled : ∀ other : Path, other.normalize = subdir.normalize →
      discover t here mapper.root other extensions =
        discover t here mapper.root subdir extensions := by
    intro other hsame
    unfold discover sourceDirectory
    rw [hsame]
  refine ⟨fun found hfound s hs => ?_, hrespelled, ?_⟩
  · obtain ⟨name, hname, hpath⟩ := exists_name_of_discover hwell hfound hs
    refine ⟨name, exists_mapsIn hroot (subdir.isAbsolute_normalize.symm.trans hrel) hname ?_⟩
    rw [hpath, sourceDirectory, Path.join_join hrel (Path.isAbsolute_of_isName hname)]
  · intro targets entryPoint p hplan a ha b hb hasame hbsame hafound hbfound
    rw [hrespelled _ hasame] at hafound
    rw [hrespelled _ hbsame] at hbfound
    refine ⟨Except.ok.inj (hafound.symm.trans hbfound), fun s hs => ?_⟩
    exact (Plan.assemble_realizes hplan).only_edge ha hs

/-- A roundabout spelling of the directory of sources. -/
theorem placesSubdirectory_tidyProject :
    (harnessMapper.root.isAbsolute = true ∧ Options.tidyProject.WellNamed ∧
      (Path.normalize ".//lib/../src/").isAbsolute = false) ∧
      harnessMapper.PlacesSubdirectory Options.tidyProject Options.projectPlace ".//lib/../src/"
        ["cc"] ∧
      (discover Options.tidyProject Options.projectPlace "/p" ".//lib/../src/" ["cc"]).result =
        .ok [⟨"/p/src/main.cc"⟩] := by
  have hwell : Options.tidyProject.WellNamed := by
    unfold FileTree.WellNamed
    decide
  have hrel : (Path.normalize ".//lib/../src/").isAbsolute = false := by decide
  exact ⟨⟨rfl, hwell, hrel⟩, harnessMapper.placesSubdirectory _ _ _ _ rfl hwell hrel,
    by decide +kernel⟩

/-- A project with a source whose stem is a dot. -/
def dottedProject : FileTree where
  entries := [(Utf8.encode "..cc" :: Utf8.encode "src" :: Options.projectPlace,
      .file [] FileTree.readablePermissions),
    (Utf8.encode "src" :: Options.projectPlace, .directory), (Options.projectPlace, .directory)]

/-- The source `..cc` is found and mapped, but its object is not `src/..o`. -/
theorem discover_dottedProject : dottedProject.WellNamed ∧
    (discover dottedProject Options.projectPlace harnessMapper.root "src" ["cc"]).result =
      .ok [⟨"/p/src/..cc"⟩] ∧
    SourceFile.stem ⟨"/p/src/..cc"⟩ = some "." ∧
    harnessMapper.map ⟨"/p/src/..cc"⟩ = .ok ⟨"src/..cc", "src/.."⟩ ∧
    harnessMapper.objectDir.join (Path.join (Path.normalize "src") "..o") ≠ "src/.." := by
  have hwell : dottedProject.WellNamed := by
    unfold FileTree.WellNamed
    decide
  exact ⟨hwell, by decide +kernel, rfl, rfl, by decide⟩

end NinjaPlan
