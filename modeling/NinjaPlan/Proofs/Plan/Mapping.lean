import NinjaPlan.Proofs.Path.Spelling
import NinjaPlan.Proofs.Plan.Collision

/-! # What becomes of a path

Mapping takes the components of the root off the front of a path.  Three things can come of that:
the root does not come first, or what is left does not end in a name, or the path is mapped.  A
mapped source is what is left, so below the root it is the path again, and unless the root is empty
its object stands below the object directory in the place of the source
(`ObjectMapper.Maps.object`).

The name of the object is the stem of the source with the extension of objects, but for sources
whose stem is a dot: the object of `..cc` is `..`. -/

namespace NinjaPlan

/-- What a source is mapped to whose path has `above` and then a name behind the root. -/
structure ObjectMapper.Maps (mapper : ObjectMapper) (s : SourceFile)
    (above : List Path.Component) (name : Text) (m : MappedSource) : Prop where
  mapped : mapper.map s = .ok m
  source : m.source.components = above ++ [.normal name]
  /-- Below the root the source is the path again. -/
  joined : mapper.root.join m.source ≈ s.path
  /-- The source is relative, unless nothing is taken off an absolute path. -/
  relative : m.source.isAbsolute = true ↔ mapper.root.text = [] ∧ s.path.isAbsolute = true
  /-- The object stands in the place of the source, below the object directory.  Its name is the
  stem with the extension of objects exactly if the stem is not a dot, and then it is `..`. -/
  object : mapper.root.text ≠ [] → ∃ dir stem, m.source.parent = some dir ∧
    m.source.fileStem = some stem ∧ dir.components = above ∧
    (m.object.components = (mapper.objectDir.components ++ dir.components) ++
      [.normal (stem ++ '.' :: objectExtension)] ↔ stem ≠ ['.']) ∧
    (stem = ['.'] → m.object.components =
      (mapper.objectDir.components ++ dir.components) ++ [.parent])

/-- Each path is outside the root, or without a name, or mapped; and each for one reason alone. -/
structure ObjectMapper.Decides (mapper : ObjectMapper) (s : SourceFile) : Prop where
  /-- A path is outside the root exactly if it does not begin with the root. -/
  outside : mapper.map s = .error (.outsideRoot s.path mapper.root) ↔
    ¬ mapper.root.components <+: s.path.components
  /-- A path is without a name exactly if what is left behind the root does not end in one. -/
  nameless : mapper.map s = .error (.noFileName s.path) ↔
    ∃ rest, s.path.components = mapper.root.components ++ rest ∧
      ∀ name, rest.getLast? ≠ some (.normal name)
  /-- Every other path is mapped. -/
  maps : ∀ above name, s.path.components = mapper.root.components ++ (above ++ [.normal name]) →
    ∃ m, mapper.Maps s above name m

namespace ObjectMapper

variable {mapper : ObjectMapper} {s : SourceFile} {m : MappedSource}

/-! ### Sources -/

/-- An empty root takes nothing off. -/
theorem source_equiv_path (hroot : mapper.root.text = []) (h : mapper.map s = .ok m) :
    m.source ≈ s.path := by
  have hcomp := components_of_map h
  rw [Path.components_eq_nil_iff.mpr hroot, List.nil_append] at hcomp
  exact hcomp.symm

theorem root_join_source (h : mapper.map s = .ok m) : mapper.root.join m.source ≈ s.path := by
  by_cases hroot : mapper.root.text = []
  · rw [Path.join_of_empty hroot]
    exact source_equiv_path hroot h
  · have hinner := source_isInner_of_ne_nil (mt Path.components_eq_nil_iff.mp hroot) h
    rw [Path.equiv_def, Path.components_join_of_isInner hinner, components_of_map h]

theorem source_isAbsolute_iff (h : mapper.map s = .ok m) :
    m.source.isAbsolute = true ↔ mapper.root.text = [] ∧ s.path.isAbsolute = true := by
  by_cases hroot : mapper.root.text = []
  · have hsame := Path.equiv_def.mp (source_equiv_path hroot h)
    rw [and_iff_right hroot, Path.isAbsolute_iff, Path.isAbsolute_iff, hsame]
  · have hinner := source_isInner_of_ne_nil (mt Path.components_eq_nil_iff.mp hroot) h
    rw [hinner.isAbsolute]
    exact iff_of_false Bool.false_ne_true fun hempty => hroot hempty.1

/-! ### Objects -/

/-- As a component, the name of an object is the stem with the extension of objects or, for a dot,
`..`. -/
theorem ofName_objectName (stem : Text) : Path.Component.ofName (objectName stem) =
    if stem = ['.'] then .parent else .normal (stem ++ '.' :: objectExtension) := by
  have hup : stem ++ '.' :: objectExtension ≠ ['.', '.'] := by
    intro h
    have hmem : 'o' ∈ stem ++ '.' :: objectExtension := by simp [objectExtension]
    rw [h] at hmem
    exact absurd hmem (by decide)
  unfold objectName Path.Component.ofName
  by_cases hdot : stem = ['.']
  · rw [if_pos hdot, if_pos rfl, if_pos hdot]
  · rw [if_neg hdot, if_neg hup, if_neg hdot]

/-! ### Outcomes -/

theorem map_eq_noFileName_iff : mapper.map s = .error (.noFileName s.path) ↔
    ∃ rest, s.path.components = mapper.root.components ++ rest ∧
      ∀ name, rest.getLast? ≠ some (.normal name) := by
  constructor
  · intro h
    unfold map at h
    cases hstrip : s.path.stripPrefix? mapper.root with
    | none => simp [hstrip] at h
    | some below =>
        refine ⟨below.components, Path.components_stripPrefix? hstrip, fun name hlast => ?_⟩
        simp [hstrip, Path.fileName_eq_some_iff.mpr hlast] at h
  · rintro ⟨rest, hrest, hname⟩
    unfold map
    cases hstrip : s.path.stripPrefix? mapper.root with
    | none => exact absurd ⟨rest, hrest.symm⟩ (Path.stripPrefix?_eq_none_iff.mp hstrip)
    | some below =>
        obtain rfl : rest = below.components :=
          List.append_cancel_left (hrest.symm.trans (Path.components_stripPrefix? hstrip))
        cases hfile : below.fileName with
        | none => simp [hfile]
        | some name => exact absurd (Path.fileName_eq_some_iff.mp hfile) (hname name)

theorem exists_maps {above : List Path.Component} {name : Text}
    (h : s.path.components = mapper.root.components ++ (above ++ [.normal name])) :
    ∃ m, mapper.Maps s above name m := by
  obtain ⟨m, hm⟩ := exists_map_of_components h
  have hsource : m.source.components = above ++ [.normal name] :=
    List.append_cancel_left ((components_of_map hm).symm.trans h)
  refine ⟨m, hm, hsource, root_join_source hm, source_isAbsolute_iff hm, fun hroot => ?_⟩
  have hinner := source_isInner_of_ne_nil (mt Path.components_eq_nil_iff.mp hroot) hm
  obtain ⟨dir, stem, hdir, hstem, hobject⟩ := components_of_object hinner hm
  obtain ⟨dir', hdir', habove⟩ := Path.exists_parent hsource
  obtain rfl := Option.some.inj (hdir.symm.trans hdir')
  rw [ofName_objectName] at hobject
  refine ⟨dir, stem, hdir, hstem, habove, ?_, fun hdot => by rw [hobject, if_pos hdot]⟩
  rw [hobject, List.append_right_inj]
  by_cases hdot : stem = ['.']
  · simp [hdot]
  · simp [hdot]

/-- **Mapping is decided by components.**  A path is outside the root, or has no name, exactly for
the reason that the error gives, and else it is mapped to what is behind the root and to an object
in the same place; the object has the name that it should exactly if the stem is not a dot. -/
theorem map_decides (mapper : ObjectMapper) (s : SourceFile) : mapper.Decides s where
  outside := map_eq_outsideRoot_iff
  nameless := map_eq_noFileName_iff
  maps _ _ h := exists_maps h

/-- The stem of `..cc` is a dot, and its object is the directory above, not `..o`. -/
theorem map_of_dotted_stem :
    map { root := "/p" } ⟨"/p/src/..cc"⟩ = .ok ⟨"src/..cc", "src/.."⟩ ∧
      Path.parent "src/..cc" = some "src" ∧ Path.fileStem "src/..cc" = some "." ∧
      Path.components "src/.." = Path.components "src" ++ [.parent] ∧
      Path.components "src/.." ≠ Path.components "src" ++ [.normal "..o"] :=
  ⟨rfl, rfl, rfl, rfl, by decide⟩

end ObjectMapper
end NinjaPlan
