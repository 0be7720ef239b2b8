import NinjaPlan.Proofs.Path.Extension
import NinjaPlan.Source

/-! # Mapped sources

What the source and the object of a mapped source have to do with the source's path and with
each other.  The path is the root followed by the source below it
(`ObjectMapper.components_of_map`), and the object depends on no more than the meaning of the
source (`ObjectMapper.object_equiv`). -/

namespace NinjaPlan
namespace ObjectMapper

variable {mapper : ObjectMapper} {s u : SourceFile} {m n : MappedSource}

theorem map_cases (h : mapper.map s = .ok m) :
    s.path.stripPrefix? mapper.root = some m.source ∧ (∃ name, m.source.fileName = some name) ∧
      m.object = (mapper.objectDir.join m.source).withExtension objectExtension := by
  unfold map at h
  cases hstrip : s.path.stripPrefix? mapper.root with
  | none => simp [hstrip] at h
  | some below =>
      simp only [hstrip] at h
      cases hname : below.fileName with
      | none => simp [hname] at h
      | some name =>
          simp only [hname, Option.isNone_some, Bool.false_eq_true, if_false,
            Except.ok.injEq] at h
          subst h
          exact ⟨rfl, ⟨name, hname⟩, rfl⟩

theorem components_of_map (h : mapper.map s = .ok m) :
    s.path.components = mapper.root.components ++ m.source.components :=
  Path.components_stripPrefix? (map_cases h).1

theorem exists_map_of_components {rest : List Path.Component} {name : Text}
    (h : s.path.components = mapper.root.components ++ (rest ++ [.normal name])) :
    ∃ m, mapper.map s = .ok m := by
  unfold map
  cases hstrip : s.path.stripPrefix? mapper.root with
  | none => exact absurd ⟨_, h.symm⟩ (Path.stripPrefix?_eq_none_iff.mp hstrip)
  | some below =>
      have hbelow : below.components = rest ++ [.normal name] :=
        List.append_cancel_left ((Path.components_stripPrefix? hstrip).symm.trans h)
      have hname : below.fileName = some name := by
        rw [Path.fileName, hbelow, List.getLast?_concat]
      simp [hname]

theorem map_eq_outsideRoot_iff : mapper.map s = .error (.outsideRoot s.path mapper.root) ↔
    ¬ mapper.root.components <+: s.path.components := by
  rw [← Path.stripPrefix?_eq_none_iff]
  unfold map
  cases hstrip : s.path.stripPrefix? mapper.root with
  | none => simp
  | some below => cases hname : below.fileName <;> simp [hname]

/-- Behind a root that is not empty there is neither a root nor an opening dot. -/
theorem source_isInner_of_ne_nil (hroot : mapper.root.components ≠ [])
    (h : mapper.map s = .ok m) : m.source.IsInner := by
  intro c hc
  refine Path.isInner_of_mem_inner (Path.mem_inner_of_mem_tail (p := s.path) ?_)
  rw [components_of_map h, List.tail_append_of_ne_nil hroot]
  exact List.mem_append_right _ hc

theorem source_isInner (hroot : mapper.root.isAbsolute = true) (h : mapper.map s = .ok m) :
    m.source.IsInner := by
  have hne : mapper.root.components ≠ [] := by
    rw [Path.components_of_absolute hroot]
    exact List.cons_ne_nil _ _
  exact source_isInner_of_ne_nil hne h

theorem source_relative (hroot : mapper.root.isAbsolute = true) (h : mapper.map s = .ok m) :
    m.source.isAbsolute = false ∧ m.source.components = m.source.inner :=
  ⟨(source_isInner hroot h).isAbsolute, (source_isInner hroot h).components_eq⟩

theorem path_equiv (hm : mapper.map s = .ok m) (hn : mapper.map u = .ok n)
    (h : m.source ≈ n.source) : s.path ≈ u.path := by
  rw [Path.equiv_def, components_of_map hm, components_of_map hn, Path.equiv_def.mp h]

theorem source_equiv_of_path (hm : mapper.map s = .ok m) (hn : mapper.map u = .ok n)
    (h : s.path ≈ u.path) : m.source ≈ n.source := by
  rw [Path.equiv_def, components_of_map hm, components_of_map hn] at h
  exact Path.equiv_def.mpr (List.append_cancel_left h)

theorem object_cases (h : mapper.map s = .ok m) :
    ∃ above name, (mapper.objectDir.join m.source).segments = above ++ [name] ∧
      Path.blank name = false ∧ name ≠ ['.', '.'] ∧
      m.object.segments = above ++ [Path.changeExtension name objectExtension] ∧
      Path.blank (Path.changeExtension name objectExtension) = false := by
  obtain ⟨hstrip, ⟨name, hname⟩, hobject⟩ := map_cases h
  obtain ⟨above, hsegs, hblank, hup⟩ := Path.segments_stripPrefix? hstrip hname
  obtain ⟨upper, hjoin⟩ := Path.segments_join mapper.objectDir m.source
  rw [hsegs, ← List.append_assoc] at hjoin
  have hne : name ≠ [] := by
    rintro rfl
    cases hblank
  refine ⟨upper ++ above, name, hjoin, hblank, hup, ?_, Path.blank_changeExtension hne _⟩
  rw [hobject]
  exact Path.segments_withExtension hjoin hblank hup (by decide)

theorem object_components_cases (h : mapper.map s = .ok m) :
    ∃ front name, (mapper.objectDir.join m.source).components = front ++ [.normal name] ∧
      Path.blank name = false ∧ m.object.components =
        front ++ [Path.Component.ofName (Path.changeExtension name objectExtension)] := by
  obtain ⟨-, -, hobject⟩ := map_cases h
  obtain ⟨above, name, hjoin, hblank, hup, -⟩ := object_cases h
  have hslash : '/' ∉ objectExtension := by decide
  obtain ⟨front, hfront, hlast⟩ := Path.components_withExtension hjoin hblank hup hslash
  exact ⟨front, name, hfront, hblank, hobject ▸ hlast⟩

theorem object_isInner (hroot : mapper.root.isAbsolute = true) (hdir : mapper.objectDir.text = [])
    (h : mapper.map s = .ok m) : m.object.IsInner := by
  obtain ⟨front, name, hfront, -, hlast⟩ := object_components_cases h
  rw [Path.join_of_empty hdir] at hfront
  have hinner := source_isInner hroot h
  intro c hc
  rw [hlast] at hc
  rcases List.mem_append.mp hc with hc | hc
  · exact hinner c (hfront ▸ List.mem_append_left _ hc)
  · obtain rfl := List.mem_singleton.mp hc
    unfold Path.Component.ofName
    split <;> simp

theorem object_equiv (hm : mapper.map s = .ok m) (hn : mapper.map u = .ok n)
    (h : m.source ≈ n.source) : m.object ≈ n.object := by
  obtain ⟨front, name, hfront, -, hlast⟩ := object_components_cases hm
  obtain ⟨front', name', hfront', -, hlast'⟩ := object_components_cases hn
  have hsame : front ++ [Path.Component.normal name] = front' ++ [.normal name'] := by
    rw [← hfront, ← hfront']
    exact Path.join_equiv h
  obtain ⟨rfl, hname⟩ := List.append_inj' hsame rfl
  obtain rfl := Path.Component.normal.inj (List.singleton_inj.mp hname)
  rw [Path.equiv_def, hlast, hlast']

theorem object_text_ne_nil (h : mapper.map s = .ok m) : m.object.text ≠ [] := by
  obtain ⟨above, name, -, -, -, hobject, hblank⟩ := object_cases h
  intro htext
  have hempty : m.object.segments = [[]] := congrArg (Text.pieces '/') htext
  have hlast := congrArg List.getLast? hempty
  rw [hobject, List.getLast?_concat] at hlast
  rw [Option.some.inj hlast] at hblank
  cases hblank

theorem extension_of_object_equiv (h : mapper.map s = .ok m) {q : Path} (hq : m.object ≈ q)
    {name : Text} (hname : q.fileName = some name) : q.extension = some objectExtension := by
  obtain ⟨front, old, -, hold, hobject⟩ := object_components_cases h
  have hne : old ≠ [] := by
    rintro rfl
    cases hold
  have hext : '.' ∉ objectExtension := by decide
  have hlast := Path.fileName_eq_some_iff.mp hname
  rw [← Path.equiv_def.mp hq, hobject, List.getLast?_concat, Path.Component.ofName] at hlast
  by_cases hup : Path.changeExtension old objectExtension = ['.', '.']
  · rw [if_pos hup] at hlast
    cases hlast
  · rw [if_neg hup] at hlast
    obtain rfl := Path.Component.normal.inj (Option.some.inj hlast)
    rw [Path.extension, hname, Option.bind_some,
      (Path.splitName_changeExtension hne hext).resolve_left hup]

end ObjectMapper

theorem SourceFile.stem_eq_of_equiv {s u : SourceFile} (h : s.path ≈ u.path) :
    s.stem = u.stem := by
  have hcomp := Path.equiv_def.mp h
  unfold stem Path.fileStem Path.fileName
  rw [hcomp]

end NinjaPlan
