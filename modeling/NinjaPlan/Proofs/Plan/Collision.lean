import NinjaPlan.Proofs.Source

/-! # Sources of one object

Mapping forgets the extension of a source and nothing else.  The object stands below the object
directory, in the directory of the source, under a name that depends on the stem alone
(`ObjectMapper.components_of_object`), and different stems give different names
(`objectName_injective`).  So the objects of two sources are the same exactly if the sources have
one directory and one stem (`ObjectMapper.object_equiv_iff`): `a.cc` and `a.h` collide, `a.b.cc` and
`a.cc` do not. -/

namespace NinjaPlan

/-- The name of the object of a source with this stem.  A source whose stem is a dot, like `..cc`,
has no stem any more when its extension is cut off. -/
def objectName (stem : Text) : Text :=
  if stem = ['.'] then ['.', '.'] else stem ++ '.' :: objectExtension

theorem objectName_injective : Function.Injective objectName := by
  have hup : ∀ stem : Text, stem ++ '.' :: objectExtension ≠ ['.', '.'] := by
    intro stem h
    have hmem : 'o' ∈ stem ++ '.' :: objectExtension := by simp [objectExtension]
    rw [h] at hmem
    exact absurd hmem (by decide)
  intro stem stem' h
  unfold objectName at h
  by_cases hdot : stem = ['.'] <;> by_cases hdot' : stem' = ['.']
  · rw [hdot, hdot']
  · rw [if_pos hdot, if_neg hdot'] at h
    exact absurd h.symm (hup stem')
  · rw [if_neg hdot, if_pos hdot'] at h
    exact absurd h (hup stem)
  · rw [if_neg hdot, if_neg hdot'] at h
    exact List.append_cancel_right h

namespace ObjectMapper

variable {mapper : ObjectMapper} {s u : SourceFile} {m n : MappedSource}

/-- The object directory comes first, then the directory of the source, then the object's name. -/
theorem components_of_object (hinner : m.source.IsInner) (h : mapper.map s = .ok m) :
    ∃ dir stem, m.source.parent = some dir ∧ m.source.fileStem = some stem ∧
      m.object.components = (mapper.objectDir.components ++ dir.components) ++
        [Path.Component.ofName (objectName stem)] := by
  obtain ⟨front, name, hfront, hblank, hlast⟩ := object_components_cases h
  obtain ⟨-, ⟨file, hfile⟩, -⟩ := map_cases h
  obtain ⟨inside, hinside⟩ := List.getLast?_eq_some_iff.mp (Path.fileName_eq_some_iff.mp hfile)
  obtain ⟨dir, hparent, hdir⟩ := Path.exists_parent hinside
  rw [Path.components_join_of_isInner hinner, hinside, ← List.append_assoc] at hfront
  obtain ⟨rfl, hname⟩ := List.append_inj' hfront rfl
  obtain rfl := Path.Component.normal.inj (List.singleton_inj.mp hname)
  refine ⟨dir, (Path.splitName file).1, hparent, Path.fileStem_of_components hinside, ?_⟩
  rw [hlast, hdir, Path.changeExtension_eq hblank, objectName]

/-- **Objects collide exactly if their sources share a directory and a stem.** -/
theorem object_equiv_iff (hroot : mapper.root.isAbsolute = true) (hm : mapper.map s = .ok m)
    (hn : mapper.map u = .ok n) :
    m.object ≈ n.object ↔
      (∃ dir dir', m.source.parent = some dir ∧ n.source.parent = some dir' ∧ dir ≈ dir') ∧
      ∃ stem, m.source.fileStem = some stem ∧ n.source.fileStem = some stem := by
  obtain ⟨dir, stem, hdir, hstem, hobject⟩ := components_of_object (source_isInner hroot hm) hm
  obtain ⟨dir', stem', hdir', hstem', hobject'⟩ :=
    components_of_object (source_isInner hroot hn) hn
  rw [Path.equiv_def, hobject, hobject', hdir, hdir', hstem, hstem']
  constructor
  · intro h
    obtain ⟨hdirs, hnames⟩ := List.append_inj' h rfl
    have hstems : stem = stem' := objectName_injective
      (Path.Component.ofName_injective (List.singleton_inj.mp hnames))
    exact ⟨⟨dir, dir', rfl, rfl, List.append_cancel_left hdirs⟩, stem, rfl, by rw [hstems]⟩
  · rintro ⟨⟨_, _, ⟨⟩, ⟨⟩, hdirs⟩, _, ⟨⟩, ⟨⟩⟩
    rw [Path.equiv_def.mp hdirs]

def buildMapper : ObjectMapper := ⟨"/p", "build"⟩

/-- Two sources whose stem is a dot, in two spellings of one directory, collide. -/
theorem object_equiv_iff_dotted :
    buildMapper.root.isAbsolute = true ∧
      buildMapper.map ⟨"/p/src/..cc"⟩ = .ok ⟨"src/..cc", "build/src/.."⟩ ∧
      buildMapper.map ⟨"/p/./src//..h"⟩ = .ok ⟨"src//..h", "build/src//.."⟩ ∧
      ("build/src/.." : Path) ≈ "build/src//.." ∧
      (∃ dir dir', Path.parent "src/..cc" = some dir ∧ Path.parent "src//..h" = some dir' ∧
        dir ≈ dir') ∧
      ∃ stem, Path.fileStem "src/..cc" = some stem ∧ Path.fileStem "src//..h" = some stem := by
  have hm : buildMapper.map ⟨"/p/src/..cc"⟩ = .ok ⟨"src/..cc", "build/src/.."⟩ := rfl
  have hn : buildMapper.map ⟨"/p/./src//..h"⟩ = .ok ⟨"src//..h", "build/src//.."⟩ := rfl
  have hsame : ("build/src/.." : Path) ≈ "build/src//.." := rfl
  exact ⟨rfl, hm, hn, hsame, (object_equiv_iff rfl hm hn).mp hsame⟩

end ObjectMapper
end NinjaPlan
