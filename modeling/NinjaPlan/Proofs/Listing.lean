import NinjaPlan.Project.Generate
import NinjaPlan.Proofs.Path.Normal
import NinjaPlan.Proofs.Text.Utf8

/-! # Found sources

A listing fails for the first item that has a `failure`, and otherwise has the source of every item
that is one (`selectSources_eq`); the items without a failure are the `Legible` ones.

A source that is found is a file right inside the directory that was searched: its path is the
directory's followed by one name (`components_of_discover`).  This takes no more of the file tree
than that its names are names, `FileTree.WellNamed`. -/

namespace NinjaPlan

/-- The names in the tree hold no slash and are neither empty nor dots. -/
def FileTree.WellNamed (t : FileTree) : Prop :=
  ∀ e ∈ t.entries, ∀ name ∈ e.1, slash ∉ name ∧ name ≠ [] ∧ name ≠ [dot] ∧ name ≠ [dot, dot]

theorem Utf8.isName_of_decode {name : Name} {s : Text} (h : Utf8.decode name = some s)
    (hslash : slash ∉ name) (hne : name ≠ []) (hdot : name ≠ [dot]) (hup : name ≠ [dot, dot]) :
    Path.IsName s := by
  obtain rfl := Utf8.encode_of_decode h
  refine ⟨fun hs => hslash ?_, ?_, ?_⟩
  · exact List.mem_flatMap.mpr ⟨'/', hs, by decide⟩
  · rw [Bool.eq_false_iff, ne_eq, Path.blank_eq_true_iff]
    rintro (rfl | rfl)
    · exact hne rfl
    · exact hdot rfl
  · rintro rfl
    exact hup rfl

theorem FileTree.WellNamed.of_mem_items {t : FileTree} (h : t.WellNamed) {dir : Location}
    {item : FileTree.Item} (hitem : item ∈ t.items dir) :
    slash ∉ item.name ∧ item.name ≠ [] ∧ item.name ≠ [dot] ∧ item.name ≠ [dot, dot] := by
  rw [FileTree.items, List.mem_mergeSort] at hitem
  obtain ⟨⟨name, e⟩, hchild, rfl⟩ := List.mem_map.mp hitem
  obtain ⟨⟨loc, e'⟩, he, hloc⟩ := List.mem_filterMap.mp hchild
  cases loc with
  | nil => cases hloc
  | cons name' above =>
      dsimp only at hloc
      split at hloc
      · obtain ⟨rfl, rfl⟩ := Prod.mk.inj (Option.some.inj hloc)
        exact h _ he _ List.mem_cons_self
      · cases hloc

theorem FileTree.WellNamed.isName {t : FileTree} (h : t.WellNamed) {dir : Location}
    {item : FileTree.Item} (hitem : item ∈ t.items dir) {name : Text}
    (hname : Utf8.decode item.name = some name) : Path.IsName name := by
  obtain ⟨hslash, hne, hdot, hup⟩ := h.of_mem_items hitem
  exact Utf8.isName_of_decode hname hslash hne hdot hup

/-! ### Selecting -/

/-- A name that can be followed, and not back to its directory. -/
def FileTree.Kind.Followed (kind : FileTree.Kind) : Prop :=
  kind = .file ∨ kind = .directory ∨ kind = .other

/-- An item that a listing does not fail at. -/
structure FileTree.Item.Legible (item : FileTree.Item) : Prop where
  followed : item.kind.Followed
  named : item.kind = .file → Utf8.decode item.name ≠ none

/-- The source that an item is, if it is one. -/
def sourceOf (dir : Path) (extensions : List Text) (item : FileTree.Item) : Option SourceFile :=
  match item.kind, Utf8.decode item.name with
  | .file, some name =>
    let source : SourceFile := ⟨dir.join ⟨name⟩⟩
    if source.hasExtension extensions then some source else none
  | _, _ => none

theorem sourceOf_of_file {dir : Path} {item : FileTree.Item} {name : Text}
    (hkind : item.kind = .file) (hname : Utf8.decode item.name = some name)
    (extensions : List Text) : sourceOf dir extensions item =
      if SourceFile.hasExtension ⟨dir.join ⟨name⟩⟩ extensions then some ⟨dir.join ⟨name⟩⟩
      else none := by
  unfold sourceOf
  rw [hkind, hname]

/-- Why a listing fails at an item, if it does. -/
def FileTree.Item.failure (dir : Path) (item : FileTree.Item) : Option ListingError :=
  match item.kind with
  | .broken e => some (.broken dir (entryPath dir item.name) e)
  | .loop => some (.loop dir (entryPath dir item.name))
  | .file => if Utf8.decode item.name = none then some (.notUtf8 dir item.name) else none
  | .directory | .other => none

theorem FileTree.Item.failure_eq_none_iff {dir : Path} {item : FileTree.Item} :
    item.failure dir = none ↔ item.Legible := by
  unfold failure
  constructor
  · intro h
    cases hkind : item.kind with
    | broken | loop => simp [hkind] at h
    | directory | other =>
        exact ⟨by simp [hkind, Kind.Followed], fun hfile => by simp [hkind] at hfile⟩
    | file => exact ⟨Or.inl hkind, fun _ => by simpa [hkind] using h⟩
  · rintro ⟨hfollowed, hnamed⟩
    rcases hfollowed with hkind | hkind | hkind
    · simp [hkind, hnamed hkind]
    · simp [hkind]
    · simp [hkind]

theorem selectSources_eq (dir : Path) (extensions : List Text) (items : List FileTree.Item) :
    selectSources dir extensions items =
      match items.findSome? (FileTree.Item.failure dir) with
      | some e => .error e
      | none => .ok (items.filterMap (sourceOf dir extensions)) := by
  induction items with
  | nil => rfl
  | cons item rest ih =>
      obtain ⟨name, kind⟩ := item
      rw [List.findSome?_cons, List.filterMap_cons, selectSources, ih]
      cases kind with
      | broken | loop | directory | other => rfl
      | file =>
          cases hname : Utf8.decode name with
          | none =>
              have hfail : FileTree.Item.failure dir ⟨name, .file⟩ = some (.notUtf8 dir name) :=
                if_pos hname
              rw [hfail]
          | some text =>
              have hfail : FileTree.Item.failure dir ⟨name, .file⟩ = none :=
                if_neg (by simp [hname])
              rw [hfail, sourceOf_of_file rfl hname]
              dsimp only
              cases rest.findSome? (FileTree.Item.failure dir) with
              | some e => rfl
              | none => split_ifs <;> rfl

theorem selectSources_eq_ok_iff {dir : Path} {extensions : List Text} {items : List FileTree.Item}
    {found : List SourceFile} : selectSources dir extensions items = .ok found ↔
      (∀ item ∈ items, item.Legible) ∧ found = items.filterMap (sourceOf dir extensions) := by
  have hall : items.findSome? (FileTree.Item.failure dir) = none ↔
      ∀ item ∈ items, item.Legible := by
    rw [List.findSome?_eq_none_iff]
    exact forall₂_congr fun _ _ => FileTree.Item.failure_eq_none_iff
  rw [← hall, selectSources_eq]
  cases items.findSome? (FileTree.Item.failure dir) with
  | some e => simp
  | none => simp [eq_comm]

theorem exists_item_of_selectSources {dir : Path} {extensions : List Text}
    {items : List FileTree.Item} {found : List SourceFile}
    (h : selectSources dir extensions items = .ok found) {s : SourceFile} (hs : s ∈ found) :
    ∃ item ∈ items, item.kind = .file ∧ ∃ name, Utf8.decode item.name = some name ∧
      s = ⟨dir.join ⟨name⟩⟩ := by
  obtain ⟨-, rfl⟩ := selectSources_eq_ok_iff.mp h
  obtain ⟨item, hitem, hsource⟩ := List.mem_filterMap.mp hs
  unfold sourceOf at hsource
  split at hsource
  · next name hkind hname =>
      dsimp only at hsource
      split_ifs at hsource
      exact ⟨item, hitem, hkind, name, hname, (Option.some.inj hsource).symm⟩
  · cases hsource

/-! ### Finding -/

theorem discover_eq_ok_iff {t : FileTree} {here : Location} {root subdir : Path}
    {extensions : List Text} {found : List SourceFile} :
    (discover t here root subdir extensions).result = .ok found ↔
      (t.directoryAt here (sourceDirectory root subdir).bytes = none ∧ found = []) ∨
      ∃ loc, t.directoryAt here (sourceDirectory root subdir).bytes = some loc ∧
        selectSources (sourceDirectory root subdir) extensions (t.items loc) = .ok found := by
  unfold discover FileTree.sources?
  dsimp only
  cases t.directoryAt here (sourceDirectory root subdir).bytes with
  | none => simp [eq_comm]
  | some loc =>
      cases hselect : selectSources (sourceDirectory root subdir) extensions (t.items loc) with
      | error e => simp [hselect]
      | ok found' => simp [hselect]

theorem exists_item_of_discover {t : FileTree} {here : Location} {root subdir : Path}
    {extensions : List Text} {found : List SourceFile} (hwell : t.WellNamed)
    (hroot : root.text ≠ [])
    (h : (discover t here root subdir extensions).result = .ok found) {s : SourceFile}
    (hs : s ∈ found) :
    ∃ loc, t.directoryAt here (sourceDirectory root subdir).bytes = some loc ∧
      ∃ item ∈ t.items loc, item.kind = .file ∧ ∃ name, Utf8.decode item.name = some name ∧
        s.path.components = (sourceDirectory root subdir).components ++ [.normal name] := by
  rcases discover_eq_ok_iff.mp h with ⟨-, rfl⟩ | ⟨loc, hloc, hselect⟩
  · cases hs
  · obtain ⟨item, hitem, hkind, name, hdecode, rfl⟩ := exists_item_of_selectSources hselect hs
    have hname := hwell.isName hitem hdecode
    have hdir : (sourceDirectory root subdir).text ≠ [] := Path.join_text_ne_nil hroot _
    refine ⟨loc, hloc, item, hitem, hkind, name, hdecode, ?_⟩
    rw [Path.components_join hdir (Path.isAbsolute_of_isName hname), Path.inner_of_isName hname]

theorem components_of_discover {t : FileTree} {here : Location} {root subdir : Path}
    {extensions : List Text} {found : List SourceFile} (hwell : t.WellNamed)
    (hroot : root.text ≠ [])
    (h : (discover t here root subdir extensions).result = .ok found) {s : SourceFile}
    (hs : s ∈ found) :
    ∃ name, s.path.components = (sourceDirectory root subdir).components ++ [.normal name] := by
  obtain ⟨-, -, -, -, -, name, -, hcomponents⟩ := exists_item_of_discover hwell hroot h hs
  exact ⟨name, hcomponents⟩

end NinjaPlan
