import NinjaPlan.Proofs.Files.View
import NinjaPlan.Proofs.Listing
import NinjaPlan.Proofs.Path.Extension

/-! # What a directory has for sources

A listing goes through the items of a directory in the order of their names.  Its outcome is the
first failure among them or, if there is none, all sources (`selectSources_eq`).  As the items are
known by the view of the tree, and an extension counts only as a member of the wanted ones, nothing
else is left to decide the outcome: neither the order of the entries nor that of the extensions.

Together: `FileTree.discovers`. -/

namespace NinjaPlan

/-! ### Extensions -/

/-- What stands behind the last dot of the name is one of the extensions; the dot must not be the
first character. -/
def HasExtension (extensions : List Text) (name : Text) : Prop :=
  ∃ stem ext, stem ≠ [] ∧ '.' ∉ ext ∧ name = stem ++ '.' :: ext ∧ ext ∈ extensions

theorem splitName_extension_iff {name ext : Text} : (Path.splitName name).2 = some ext ↔
    ∃ stem, stem ≠ [] ∧ '.' ∉ ext ∧ name = stem ++ '.' :: ext := by
  constructor
  · intro h
    rcases Path.splitName_cases name with hsplit | ⟨stem, old, hname, hstem, hold, hsplit⟩
    · rw [hsplit] at h
      cases h
    · rw [hsplit] at h
      obtain rfl := Option.some.inj h
      exact ⟨stem, hstem, hold, hname⟩
  · rintro ⟨stem, hstem, hext, rfl⟩
    rw [Path.splitName_append hstem hext]

theorem hasExtension_join_iff {name : Text} (hname : Path.IsName name) (dir : Path)
    (extensions : List Text) :
    SourceFile.hasExtension ⟨dir.join ⟨name⟩⟩ extensions = true ↔ HasExtension extensions name := by
  obtain ⟨above, habove⟩ := Path.segments_join dir ⟨name⟩
  rw [Path.segments_of_isName hname] at habove
  have hextension : Path.extension (dir.join ⟨name⟩) = (Path.splitName name).2 := by
    rw [Path.extension, Path.fileName_of_segments habove hname.2.1 hname.2.2, Option.bind_some]
  unfold SourceFile.hasExtension HasExtension
  dsimp only
  rw [hextension]
  constructor
  · intro h
    cases hsplit : (Path.splitName name).2 with
    | none => simp [hsplit] at h
    | some ext =>
        obtain ⟨stem, hstem, hext, hname⟩ := splitName_extension_iff.mp hsplit
        exact ⟨stem, ext, hstem, hext, hname, by simpa [hsplit] using h⟩
  · rintro ⟨stem, ext, hstem, hext, hname, hmem⟩
    rw [splitName_extension_iff.mpr ⟨stem, hstem, hext, hname⟩]
    simpa using hmem

/-! ### Listings -/

section selection

variable {dir : Path} {extensions : List Text} {items : List FileTree.Item}

theorem selectSources_eq_error_iff {e : ListingError} :
    selectSources dir extensions items = .error e ↔ ∃ before item after,
      items = before ++ item :: after ∧ item.failure dir = some e ∧
        ∀ other ∈ before, other.Legible := by
  have hfirst : selectSources dir extensions items = .error e ↔
      items.findSome? (FileTree.Item.failure dir) = some e := by
    rw [selectSources_eq]
    cases items.findSome? (FileTree.Item.failure dir) <;> simp
  simp only [hfirst, List.findSome?_eq_some_iff, FileTree.Item.failure_eq_none_iff]

def sourceName (dir : Path) (extensions : List Text) (item : FileTree.Item) : Option Text :=
  match item.kind, Utf8.decode item.name with
  | .file, some name =>
    if SourceFile.hasExtension ⟨dir.join ⟨name⟩⟩ extensions then some name else none
  | _, _ => none

theorem sourceName_eq_some_iff {item : FileTree.Item} {name : Text} :
    sourceName dir extensions item = some name ↔ item.kind = .file ∧
      Utf8.decode item.name = some name ∧
      SourceFile.hasExtension ⟨dir.join ⟨name⟩⟩ extensions = true := by
  unfold sourceName
  split
  · next text hkind hname =>
      rw [hkind, hname]
      split_ifs with hext
      · grind
      · grind
  · next hnot =>
      simp only [reduceCtorEq, false_iff, not_and]
      exact fun hkind hname => absurd hname (hnot name hkind)

theorem filterMap_sourceOf (dir : Path) (extensions : List Text) (items : List FileTree.Item) :
    items.filterMap (sourceOf dir extensions) =
      (items.filterMap (sourceName dir extensions)).map fun name => ⟨dir.join ⟨name⟩⟩ := by
  rw [List.map_filterMap]
  refine List.filterMap_congr fun item _ => ?_
  obtain ⟨bytes, kind⟩ := item
  unfold sourceOf sourceName
  dsimp only
  cases kind with
  | broken | loop | directory | other => rfl
  | file =>
      cases Utf8.decode bytes with
      | none => rfl
      | some name =>
          dsimp only
          split_ifs <;> rfl

end selection
/-! ### Directories -/

namespace FileTree

/-- The item is an entry of the directory with what its name leads to. -/
def Holds (t : FileTree) (loc : Location) (item : Item) : Prop :=
  t.get? (item.name :: loc) ≠ none ∧ item.kind = t.itemKind loc item.name

/-- The directory has a file with this name and one of the extensions. -/
def HoldsSource (t : FileTree) (loc : Location) (extensions : List Text) (name : Text) : Prop :=
  ∃ item, t.Holds loc item ∧ item.kind = .file ∧ Utf8.decode item.name = some name ∧
    HasExtension extensions name

/-- What comes of looking for the sources of a subdirectory, which is at a location. -/
structure Discovers (t : FileTree) (here : Location) (root subdir : Path) (extensions : List Text)
    (loc : Location) : Prop where
  /-- Sources are found exactly if every entry can be followed and every file's name is a text. -/
  succeeds : (∃ found, (discover t here root subdir extensions).result = .ok found) ↔
    ∀ item, t.Holds loc item → item.Legible
  /-- Then they are the files of the directory with a wanted extension, in the order of their
  names. -/
  found : ∀ found, (discover t here root subdir extensions).result = .ok found →
    ∃ names : List Text,
      found = names.map (fun name => ⟨(sourceDirectory root subdir).join ⟨name⟩⟩) ∧
      names.Pairwise (fun a b => Utf8.encode a < Utf8.encode b) ∧
      ∀ name, name ∈ names ↔ t.HoldsSource loc extensions name
  /-- Else the error is that of the first entry that has one, in the order of their names. -/
  failed : ∀ e, (discover t here root subdir extensions).result = .error e ↔
    ∃ item, t.Holds loc item ∧ item.failure (sourceDirectory root subdir) = some e ∧
      ∀ other, t.Holds loc other → other.name < item.name → other.Legible
  /-- The order of the entries does not matter, nor do the order and repetition of extensions. -/
  unordered : ∀ (u : FileTree) (others : List Text), u.entries.Perm t.entries →
    (∀ ext, ext ∈ others ↔ ext ∈ extensions) →
    discover u here root subdir others = discover t here root subdir extensions

theorem result_discover {t : FileTree} {here loc : Location} {root subdir : Path}
    (h : t.directoryAt here (sourceDirectory root subdir).bytes = some loc)
    (extensions : List Text) : (discover t here root subdir extensions).result =
      selectSources (sourceDirectory root subdir) extensions (t.items loc) := by
  unfold discover sources?
  dsimp only
  rw [h, Option.map_some]
  cases selectSources (sourceDirectory root subdir) extensions (t.items loc) <;> rfl

/-- Sources are named by the names in the directory, in their order. -/
theorem pairwise_sourceName {items : List Item} (h : InNameOrder items) (dir : Path)
    (extensions : List Text) : (items.filterMap (sourceName dir extensions)).Pairwise
      fun a b => Utf8.encode a < Utf8.encode b := by
  rw [List.pairwise_filterMap]
  refine h.imp fun ⟨hle, hne⟩ name hname name' hname' => ?_
  obtain ⟨-, hdecode, -⟩ := sourceName_eq_some_iff.mp hname
  obtain ⟨-, hdecode', -⟩ := sourceName_eq_some_iff.mp hname'
  rw [Utf8.encode_of_decode hdecode, Utf8.encode_of_decode hdecode']
  exact Std.lt_of_le_of_ne hle hne

theorem mem_sourceNames_iff {t : FileTree} (hwell : t.WellNamed) {loc : Location} {dir : Path}
    {extensions : List Text} {name : Text} :
    name ∈ (t.items loc).filterMap (sourceName dir extensions) ↔
      t.HoldsSource loc extensions name := by
  rw [List.mem_filterMap]
  refine exists_congr fun item => ?_
  rw [sourceName_eq_some_iff]
  constructor
  · rintro ⟨hitem, hkind, hdecode, hext⟩
    exact ⟨mem_items_iff.mp hitem, hkind, hdecode,
      (hasExtension_join_iff (hwell.isName hitem hdecode) _ _).mp hext⟩
  · rintro ⟨hholds, hkind, hdecode, hext⟩
    have hitem := mem_items_iff.mpr hholds
    exact ⟨hitem, hkind, hdecode,
      (hasExtension_join_iff (hwell.isName hitem hdecode) _ _).mpr hext⟩

theorem exists_names_of_discover {t : FileTree} {here : Location} {root subdir : Path}
    {extensions : List Text} {found : List SourceFile} (hwell : t.WellNamed) (hsingle : t.Single)
    (h : (discover t here root subdir extensions).result = .ok found) : ∃ names : List Text,
      found = names.map (fun name => ⟨(sourceDirectory root subdir).join ⟨name⟩⟩) ∧
      names.Pairwise (fun a b => Utf8.encode a < Utf8.encode b) ∧
      ∀ name, name ∈ names ↔
        ∃ loc, t.directoryAt here (sourceDirectory root subdir).bytes = some loc ∧
          t.HoldsSource loc extensions name := by
  rcases discover_eq_ok_iff.mp h with ⟨hnone, rfl⟩ | ⟨loc, hloc, hselect⟩
  · exact ⟨[], rfl, .nil, by simp [hnone]⟩
  · obtain ⟨-, rfl⟩ := selectSources_eq_ok_iff.mp hselect
    refine ⟨_, filterMap_sourceOf _ _ _, pairwise_sourceName (inNameOrder_items hsingle loc) _ _,
      fun name => ?_⟩
    simp [mem_sourceNames_iff hwell, hloc]

theorem InNameOrder.mem_before_iff {before after : List Item} {item other : Item}
    (h : InNameOrder (before ++ item :: after)) :
    other ∈ before ↔ other ∈ before ++ item :: after ∧ other.name < item.name := by
  obtain ⟨-, hbehind, hacross⟩ := List.pairwise_append.mp h
  constructor
  · intro hother
    obtain ⟨hle, hne⟩ := hacross other hother item List.mem_cons_self
    exact ⟨List.mem_append_left _ hother, Std.lt_of_le_of_ne hle hne⟩
  · rintro ⟨hmem, hlt⟩
    rcases List.mem_append.mp hmem with hother | hother
    · exact hother
    rcases List.mem_cons.mp hother with rfl | hother
    · exact absurd hlt (List.lt_irrefl _)
    · exact absurd hlt (List.not_lt.mpr ((List.pairwise_cons.mp hbehind).1 other hother).1)

theorem selectSources_items_eq_error_iff {t : FileTree} (hsingle : t.Single) {loc : Location}
    {dir : Path} {extensions : List Text} {e : ListingError} :
    selectSources dir extensions (t.items loc) = .error e ↔
      ∃ item, t.Holds loc item ∧ item.failure dir = some e ∧
        ∀ other, t.Holds loc other → other.name < item.name → other.Legible := by
  have horder := inNameOrder_items hsingle loc
  rw [selectSources_eq_error_iff]
  constructor
  · rintro ⟨before, item, after, hitems, hfailure, hlegible⟩
    rw [hitems] at horder
    have hitem : item ∈ t.items loc := hitems ▸ List.mem_append_right _ List.mem_cons_self
    refine ⟨item, mem_items_iff.mp hitem, hfailure, fun other hother hlt => ?_⟩
    exact hlegible other (horder.mem_before_iff.mpr ⟨hitems ▸ mem_items_iff.mpr hother, hlt⟩)
  · rintro ⟨item, hitem, hfailure, hless⟩
    obtain ⟨before, after, hitems⟩ := List.append_of_mem (mem_items_iff.mpr hitem)
    rw [hitems] at horder
    refine ⟨before, item, after, hitems, hfailure, fun other hother => ?_⟩
    obtain ⟨hmem, hlt⟩ := horder.mem_before_iff.mp hother
    exact hless other (mem_items_iff.mp (hitems ▸ hmem)) hlt

theorem selectSources_congr {extensions others : List Text}
    (h : ∀ ext, ext ∈ others ↔ ext ∈ extensions) (dir : Path) (items : List Item) :
    selectSources dir others items = selectSources dir extensions items := by
  have hcontains : ∀ ext, others.contains ext = extensions.contains ext := by
    intro ext
    rw [Bool.eq_iff_iff, List.contains_iff_mem, List.contains_iff_mem, h]
  have hsource : sourceOf dir others = sourceOf dir extensions := by
    funext item
    unfold sourceOf SourceFile.hasExtension
    simp only [hcontains]
  rw [selectSources_eq, selectSources_eq, hsource]

theorem discover_of_perm {t u : FileTree} (hsingle : t.Single) (here : Location)
    (root subdir : Path) {extensions others : List Text} (hperm : u.entries.Perm t.entries)
    (hmem : ∀ ext, ext ∈ others ↔ ext ∈ extensions) :
    discover u here root subdir others = discover t here root subdir extensions := by
  have hview := get?_of_perm hsingle hperm
  have hitems := items_congr hview hsingle ((hperm.map Prod.fst).nodup_iff.mpr hsingle)
  have hselect : (fun loc => selectSources (sourceDirectory root subdir) others (u.items loc)) =
      fun loc => selectSources (sourceDirectory root subdir) extensions (t.items loc) := by
    funext loc
    rw [hitems loc, selectSources_congr hmem]
  unfold discover sources?
  dsimp only
  rw [directoryAt_congr hview, hselect]

/-- **What is found is what is there.**  The sources of a subdirectory are all files right inside it
with a wanted extension, in the order of their names, unless an entry cannot be listed; then the
first such entry is reported.  How the entries and the extensions are enumerated does not matter. -/
theorem discovers (t : FileTree) (here : Location) (root subdir : Path) (extensions : List Text)
    (loc : Location) (hwell : t.WellNamed) (hsingle : t.Single)
    (h : t.directoryAt here (sourceDirectory root subdir).bytes = some loc) :
    t.Discovers here root subdir extensions loc where
  succeeds := by
    rw [result_discover h]
    constructor
    · rintro ⟨found, hfound⟩ item hitem
      exact (selectSources_eq_ok_iff.mp hfound).1 item (mem_items_iff.mpr hitem)
    · intro hlegible
      exact ⟨_, selectSources_eq_ok_iff.mpr
        ⟨fun item hitem => hlegible item (mem_items_iff.mp hitem), rfl⟩⟩
  found := by
    intro found hfound
    rw [result_discover h] at hfound
    obtain ⟨-, rfl⟩ := selectSources_eq_ok_iff.mp hfound
    exact ⟨_, filterMap_sourceOf _ _ _, pairwise_sourceName (inNameOrder_items hsingle loc) _ _,
      fun name => mem_sourceNames_iff hwell⟩
  failed e := by
    rw [result_discover h]
    exact selectSources_items_eq_error_iff hsingle
  unordered u others hperm hmem := discover_of_perm hsingle here root subdir hperm hmem

/-- A directory with files, a link to one and a directory whose name is no text, in disorder. -/
def mixedProject : FileTree where
  entries := [(Utf8.encode "b.cc" :: Utf8.encode "src" :: [Utf8.encode "p"],
      .file [] readablePermissions),
    ([0xFF] :: Utf8.encode "src" :: [Utf8.encode "p"], .directory),
    (Utf8.encode "a.cc" :: Utf8.encode "src" :: [Utf8.encode "p"], .link (Utf8.encode "./b.cc")),
    ([Utf8.encode "p"], .directory),
    (Utf8.encode "a.h" :: Utf8.encode "src" :: [Utf8.encode "p"], .file [] readablePermissions),
    (Utf8.encode "src" :: [Utf8.encode "p"], .directory)]

theorem discovers_mixedProject :
    (mixedProject.WellNamed ∧ mixedProject.Single ∧
      mixedProject.directoryAt [Utf8.encode "p"] (sourceDirectory "/p" "src/.").bytes =
        some [Utf8.encode "src", Utf8.encode "p"]) ∧
      mixedProject.Discovers [Utf8.encode "p"] "/p" "src/." ["cc", "cc"]
        [Utf8.encode "src", Utf8.encode "p"] ∧
      mixedProject.HoldsSource [Utf8.encode "src", Utf8.encode "p"] ["cc", "cc"] "a.cc" := by
  have hwell : mixedProject.WellNamed := by
    unfold WellNamed
    decide
  have hsingle : mixedProject.Single := by
    unfold Single
    decide
  have hdir : mixedProject.directoryAt [Utf8.encode "p"] (sourceDirectory "/p" "src/.").bytes =
      some [Utf8.encode "src", Utf8.encode "p"] := by decide +kernel
  refine ⟨⟨hwell, hsingle, hdir⟩, discovers _ _ _ _ _ _ hwell hsingle hdir,
    ⟨Utf8.encode "a.cc", .file⟩, ⟨by decide +kernel, by decide +kernel⟩, rfl, by decide +kernel, ?_⟩
  exact ⟨"a", "cc", by decide, by decide, rfl, by decide⟩

end FileTree

end NinjaPlan
