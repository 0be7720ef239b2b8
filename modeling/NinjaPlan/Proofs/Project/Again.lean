import NinjaPlan.Options.Parse
import NinjaPlan.Proofs.Project.Modes
import NinjaPlan.Proofs.Project.SameText

/-! # Running again

A run that writes leaves a file more in the root than it found, and the next run looks for sources
among the files that are there.  What it leaves can be written again, for the canonical path of the
root meets no link that the new file could have replaced (`Wrote.replaced_put`); so the next run
leaves the same build file exactly if it finds the root and generates the same text
(`Wrote.run_iff_generate`).  One text is only ever written for one set of sources, so this means that
it finds the same sources (`Layout.generate_put_iff`).

Where the name of the build file led to a file, if anywhere, the search finds what it found
(`discover_put`), unless the root is searched itself, for files with the extension of the build
file: then the build file is one more source (`mem_of_discover_put`).

`Options.runAgain_iff` puts this together.  A device in the place of the build file, or a link to a
directory, is no file and then is one: the names that led to it lead to a source now, and the paths
that went through it lead nowhere. -/

namespace NinjaPlan

theorem isPlainName_buildFileName : FileTree.IsPlainName buildFileName.bytes :=
  ⟨by decide, by decide, by decide, by decide, by decide⟩

theorem components_buildFile {above : Path} (habove : above.text ≠ []) :
    (above.join buildFileName).components = above.components ++ [.normal buildFileName.text] :=
  Path.components_join habove rfl

def buildFileExtension : Text := "ninja"

/-! ### Finding sources again -/

section discover

variable {t : FileTree} {here dir : Location} {root subdir searched : Path} {extensions : List Text}
  {found : List SourceFile} {content : Bytes} {permissions : Nat}

theorem hasExtension_buildFile (hsearched : searched.text ≠ []) (extensions : List Text) :
    SourceFile.hasExtension ⟨searched.join buildFileName⟩ extensions =
      extensions.contains buildFileExtension := by
  have hname : (searched.join buildFileName).fileName = some buildFileName.text := by
    rw [Path.fileName_eq_some_iff, components_buildFile hsearched, List.getLast?_append]
    rfl
  have hext : (searched.join buildFileName).extension = some buildFileExtension := by
    rw [Path.extension, hname]
    rfl
  unfold SourceFile.hasExtension
  rw [hext]

theorem sourceOf_buildFile (hsearched : searched.text ≠ []) (kind : FileTree.Kind) :
    sourceOf searched extensions ⟨buildFileName.bytes, kind⟩ =
      if kind = .file ∧ buildFileExtension ∈ extensions then some ⟨searched.join buildFileName⟩
      else none := by
  have hname : Utf8.decode buildFileName.bytes = some buildFileName.text := by decide
  by_cases hkind : kind = .file
  · subst hkind
    rw [sourceOf_of_file rfl hname]
    show (if SourceFile.hasExtension ⟨searched.join buildFileName⟩ extensions = true
      then _ else _) = _
    rw [hasExtension_buildFile hsearched]
    simp
  · rw [if_neg fun h => hkind h.1]
    unfold sourceOf
    cases kind <;> simp_all

/-- Without its extension the build file is passed over. -/
theorem filterMap_sourceOf_of_not_mem (hsearched : searched.text ≠ [])
    (hext : buildFileExtension ∉ extensions) (items : List FileTree.Item) :
    items.filterMap (sourceOf searched extensions) =
      (items.filter (·.name != buildFileName.bytes)).filterMap (sourceOf searched extensions) := by
  rw [List.filterMap_filter]
  refine List.filterMap_congr fun item _ => ?_
  split_ifs with hname
  · rfl
  · obtain ⟨name, kind⟩ := item
    obtain rfl : name = buildFileName.bytes := by simpa using hname
    rw [sourceOf_buildFile hsearched, if_neg fun h => hext h.2]

variable (hwell : t.WellFormed) (hsingle : t.Single)
  (hfile : t.LeadsToFile dir buildFileName.bytes) (hroot : root.text ≠ [])

include hwell hsingle hfile hroot in
/-- The build file changes what is found in no directory but its own, and there only if it was
missing and its extension is asked for. -/
theorem discover_put (h : (discover t here root subdir extensions).result = .ok found)
    (hsame : buildFileExtension ∈ extensions →
      t.directoryAt here (sourceDirectory root subdir).bytes = some dir →
      t.get? (buildFileName.bytes :: dir) ≠ none) :
    (discover (t.put (buildFileName.bytes :: dir) (.file content permissions)) here root subdir
      extensions).result = .ok found := by
  have hplain := isPlainName_buildFileName
  have hsearched : (sourceDirectory root subdir).text ≠ [] := Path.join_text_ne_nil hroot _
  rw [discover_eq_ok_iff, FileTree.directoryAt_put (hfile.noDirectory hwell hplain)]
  refine (discover_eq_ok_iff.mp h).imp_right ?_
  rintro ⟨loc, hloc, hselect⟩
  refine ⟨loc, hloc, ?_⟩
  obtain ⟨-, -, -, -, hwithin⟩ := FileTree.directoryAt_eq_some_iff.mp hloc
  obtain ⟨hlegible, rfl⟩ := selectSources_eq_ok_iff.mp hselect
  have hclear : ∀ item ∈ t.items loc, item.kind.Followed := fun item hitem =>
    (hlegible item hitem).followed
  refine selectSources_eq_ok_iff.mpr ⟨fun item hitem => ?_, ?_⟩
  · rcases (FileTree.mem_items_put hwell hplain hfile hwithin hclear).mp hitem with
      hitem | ⟨-, rfl⟩
    · exact hlegible item hitem
    · exact ⟨Or.inl rfl, fun _ => by decide⟩
  · by_cases hext : buildFileExtension ∈ extensions
    · rw [FileTree.items_put hwell hplain hfile hwithin hclear hsingle]
      by_cases hdir : loc = dir
      · subst hdir
        exact Or.inr (hsame hext hloc)
      · exact Or.inl hdir
    · have hskip := filterMap_sourceOf_of_not_mem hsearched hext
      rw [hskip (t.items loc), hskip (FileTree.items _ loc),
        FileTree.filter_items_put hwell hplain hfile hwithin hclear hsingle]

theorem mem_of_discover_put (hroot : root.text ≠ []) (hdir : t.get? dir = some .directory)
    (hsearched : (t.put (buildFileName.bytes :: dir) (.file content permissions)).directoryAt here
      (sourceDirectory root subdir).bytes = some dir)
    (hext : buildFileExtension ∈ extensions)
    (h : (discover (t.put (buildFileName.bytes :: dir) (.file content permissions)) here root subdir
      extensions).result = .ok found) :
    ⟨(sourceDirectory root subdir).join buildFileName⟩ ∈ found := by
  rcases discover_eq_ok_iff.mp h with ⟨hnone, -⟩ | ⟨loc, hloc, hselect⟩
  · cases hnone.symm.trans hsearched
  · obtain rfl := Option.some.inj (hloc.symm.trans hsearched)
    obtain ⟨-, rfl⟩ := selectSources_eq_ok_iff.mp hselect
    refine List.mem_filterMap.mpr
      ⟨⟨buildFileName.bytes, .file⟩, FileTree.mem_items_iff.mpr ⟨?_, ?_⟩, ?_⟩
    · rw [FileTree.get?_put_self (List.cons_ne_nil _ _)]
      exact nofun
    · exact (FileTree.itemKind_put_self content permissions isPlainName_buildFileName hdir).symm
    · have hne : (sourceDirectory root subdir).text ≠ [] := Path.join_text_ne_nil hroot _
      rw [sourceOf_buildFile hne, if_pos ⟨rfl, hext⟩]

end discover

/-! ### Generating again -/

namespace Layout

variable {l : Layout} {t : FileTree} {here : Location} {text : Text}

section put

variable {o : Options} {answers : PackageAnswers} {dir : Location} {permissions : Nat}
  (hwell : t.WellFormed) (hsingle : t.Single) (hfile : t.LeadsToFile dir buildFileName.bytes)
  (hroot : l.root.text ≠ [])
  (h : (l.generate o answers.source t here).1.result = .ok text)

/-- Whether a target's sources are looked for in the directory. -/
def Searches (l : Layout) (t : FileTree) (here dir : Location) : Prop :=
  ∃ spec ∈ l.targets, t.directoryAt here (sourceDirectory l.root spec.subdir).bytes = some dir

include h in
/-- The text is the same as long as every search finds what it found. -/
theorem generate_of_discover {u : FileTree} (hsame : ∀ spec ∈ l.targets, ∀ found,
      (discover t here l.root spec.subdir l.extensions).result = .ok found →
        (discover u here l.root spec.subdir l.extensions).result = .ok found) :
    (l.generate o answers.source u here).1.result = .ok text := by
  obtain ⟨c, hc, hdescribe⟩ := generate_eq_ok_iff.mp h
  obtain ⟨targets, hfinds, p, hp, htext⟩ := describe_eq_ok_iff.mp hdescribe
  refine generate_eq_ok_iff.mpr ⟨c, ((o.flagRequest l).resolve_answers answers _ _).trans hc,
    describe_eq_ok_iff.mpr ⟨targets, ?_, p, hp, htext⟩⟩
  refine ((List.forall₂_and_left _ _).mpr ⟨hsame, hfinds⟩).imp ?_
  rintro spec target ⟨hsame, hspec, hfound⟩
  exact ⟨hspec, hsame target.sources hfound⟩

include hwell hsingle hfile hroot h in
/-- The text is the same as long as the build file is no new source. -/
theorem generate_put (hsame : buildFileExtension ∈ l.extensions → l.Searches t here dir →
      t.get? (buildFileName.bytes :: dir) ≠ none) (content : Bytes) :
    (l.generate o answers.source (t.put (buildFileName.bytes :: dir) (.file content permissions))
      here).1.result = .ok text := by
  refine generate_of_discover h fun spec hspec found hfound => ?_
  exact discover_put hwell hsingle hfile hroot hfound fun hext hsearched =>
    hsame hext ⟨spec, hspec, hsearched⟩

include hwell hsingle hroot h in
/-- The text is the same exactly as long as every search finds the same. -/
theorem generate_put_iff (hdir : t.directoryAt here l.root.bytes = some dir) {content : Bytes} :
    (l.generate o answers.source (t.put (buildFileName.bytes :: dir) (.file content permissions))
      here).1.result = .ok text ↔ ∀ spec ∈ l.targets,
        (discover (t.put (buildFileName.bytes :: dir) (.file content permissions)) here l.root
          spec.subdir l.extensions).result =
          (discover t here l.root spec.subdir l.extensions).result := by
  obtain ⟨-, -, -, -, hget⟩ := FileTree.directoryAt_eq_some_iff.mp hdir
  have hnamed := FileTree.wellNamed_put hwell.named isPlainName_buildFileName hget
    (.file content permissions)
  constructor
  · intro h' spec hspec
    obtain ⟨c, -, hdescribe⟩ := generate_eq_ok_iff.mp h
    obtain ⟨c', -, hdescribe'⟩ := generate_eq_ok_iff.mp h'
    exact discover_eq_of_text hroot hwell.named hnamed hsingle
      (FileTree.single_put hsingle _ _) hdescribe hdescribe' hspec
  · intro hsame
    exact generate_of_discover h fun spec hspec found hfound => (hsame spec hspec).trans hfound

include hwell hsingle hfile hroot h in
/-- A build file that is a new source changes the text. -/
theorem generate_put_ne (hdir : t.directoryAt here l.root.bytes = some dir)
    (hext : buildFileExtension ∈ l.extensions) (hsearches : l.Searches t here dir)
    (hfree : t.get? (buildFileName.bytes :: dir) = none) (content : Bytes) :
    (l.generate o answers.source (t.put (buildFileName.bytes :: dir) (.file content permissions))
      here).1.result ≠ .ok text := by
  intro h'
  obtain ⟨spec, hspec, hsearched⟩ := hsearches
  have hsame := (generate_put_iff hwell hsingle hroot h hdir).mp h' spec hspec
  obtain ⟨c, -, hdescribe⟩ := generate_eq_ok_iff.mp h'
  obtain ⟨targets, hfinds, -⟩ := describe_eq_ok_iff.mp hdescribe
  obtain ⟨target, -, rfl, hfound⟩ := forall₂_exists_right hfinds hspec
  -- The build file is found with itself there, and so it has been found without.
  obtain ⟨-, -, -, -, hget⟩ := FileTree.directoryAt_eq_some_iff.mp hsearched
  have hno := hfile.noDirectory hwell isPlainName_buildFileName
  have hsource := mem_of_discover_put hroot hget
    ((FileTree.directoryAt_put hno here _).trans hsearched) hext hfound
  rw [hsame] at hfound
  obtain ⟨loc, hloc, item, hitem, -, name, hname, hcomponents⟩ :=
    exists_item_of_discover hwell.named hroot hfound hsource
  obtain rfl := Option.some.inj (hloc.symm.trans hsearched)
  have hjoin := components_buildFile (Path.join_text_ne_nil hroot target.spec.subdir.normalize)
  obtain ⟨-, hlast⟩ := List.append_inj' (hcomponents.symm.trans hjoin) rfl
  obtain rfl : name = buildFileName.text := by simpa using hlast
  refine (FileTree.mem_items_iff.mp hitem).1 ?_
  rwa [← Utf8.encode_of_decode hname]

end put
end Layout

/-! ### Two runs -/

namespace Options

variable {o : Options} {answers : PackageAnswers} {t : FileTree} {here dir : Location}
  {root : Path} {text : Text} {sink : Sink}

/-- A run on the files that a run has left. -/
def runAgain (o : Options) (answers : PackageAnswers) (t : FileTree) (here : Location)
    (sink : Sink) : Outcome :=
  o.run answers.source (o.run answers.source t here sink).tree here sink

/-- How a run has written the build file. -/
structure Wrote (o : Options) (answers : PackageAnswers) (t : FileTree) (here : Location)
    (root : Path) (dir : Location) (text : Text) : Prop where
  located : o.locateRoot t here = .ok root
  directory : t.directoryAt here root.bytes = some dir
  generated : ((Layout.ofOptions o root).generate o answers.source t here).1.result = .ok text
  parent : t.locateParent here (root.join buildFileName).bytes =
    .ok (dir, .name buildFileName.bytes false)
  replaced : (t.replace here (root.join buildFileName) (Utf8.encode text)).error = none

theorem prepare_answers (hroot : o.locateRoot t here = .ok root) :
    o.prepare answers.source t here =
      (((Layout.ofOptions o root).generate o answers.source t here).1.result.map (root, ·), t) := by
  have htree := (o.leads_prepare answers.source t here).eq_of_keepsFiles
    (PackageSource.keepsFiles_of_answers answers)
  refine Prod.ext ?_ htree
  unfold prepare
  rw [hroot]

theorem exists_wrote (hmode : o.toStdout = false)
    (hok : (o.run answers.source t here sink).result = .ok ()) :
    ∃ root dir text, o.Wrote answers t here root dir text ∧
      (o.run answers.source t here sink).tree = t.put (buildFileName.bytes :: dir)
        (.file (Utf8.encode text) FileTree.readablePermissions) := by
  cases hprepare : (o.prepare answers.source t here).1 with
  | error e => cases (run_of_prepareError sink none hprepare).result.symm.trans hok
  | ok prepared =>
      obtain ⟨root, text⟩ := prepared
      obtain ⟨hroot, htext, -⟩ := prepare_cases_of_ok hprepare
      obtain ⟨-, htree, hresult⟩ := run_of_prepare sink none hmode hprepare
      rw [prepare_answers hroot] at htree hresult
      rcases FileTree.replace_cases t here (root.join buildFileName) (Utf8.encode text) none with
        ⟨e, herror, -⟩ | ⟨name, dir, herror, hfinal, hnul, hparent⟩
      · simp [herror, hok] at hresult
      · obtain ⟨hname, hdir⟩ := directoryAt_of_buildFile (root_bytes_ne_nil hroot) hnul hparent
        obtain ⟨rfl, -⟩ := FileTree.LastSegment.name.inj hname
        exact ⟨root, dir, text, ⟨hroot, hdir, htext, hparent, herror⟩, htree.trans hfinal⟩

/-! ### The root again -/

theorem locateRoot_congr {u : FileTree}
    (h : u.directoryAt here (Path.bytes ⟨o.root.getD "."⟩) =
      t.directoryAt here (Path.bytes ⟨o.root.getD "."⟩)) :
    o.locateRoot u here = o.locateRoot t here := by
  unfold locateRoot
  dsimp only
  rw [h]

theorem Wrote.locateRoot_put (h : o.Wrote answers t here root dir text)
    (hno : t.NoDirectory dir buildFileName.bytes) (content : Bytes) (permissions : Nat) :
    o.locateRoot (t.put (buildFileName.bytes :: dir) (.file content permissions)) here =
      .ok root :=
  (locateRoot_congr (FileTree.directoryAt_put hno here _)).trans h.located

/-- A root that is found with a new file there is the one found before. -/
theorem Wrote.eq_of_locateRoot_put (h : o.Wrote answers t here root dir text) {other : Path}
    {content : Bytes} {permissions : Nat}
    (hother : o.locateRoot (t.put (buildFileName.bytes :: dir) (.file content permissions)) here =
      .ok other) : other = root := by
  obtain ⟨loc, hloc, -⟩ := locateRoot_cases hother
  have hsame := FileTree.directoryAt_of_put (List.cons_ne_nil _ _) hloc
  rw [locateRoot_congr (hloc.trans hsame.symm), h.located] at hother
  exact (Except.ok.inj hother).symm

theorem isAbsolute_buildFile (hroot : root.text ≠ []) :
    (root.join buildFileName).isAbsolute = root.isAbsolute := by
  have hne : root.components ≠ [] := mt Path.components_eq_nil_iff.mp hroot
  rw [Bool.eq_iff_iff, Path.isAbsolute_iff, Path.isAbsolute_iff, components_buildFile hroot,
    List.head?_append_of_ne_nil _ hne]

theorem directoryOf_buildFile (hroot : root.text ≠ []) :
    FileTree.directoryOf (root.join buildFileName) ≈ root := by
  obtain ⟨above, hparent, hcomponents⟩ := Path.exists_parent (components_buildFile hroot)
  have htext : above.text ≠ [] := by
    intro hempty
    rw [Path.components_eq_nil_iff.mpr hempty] at hcomponents
    exact hroot (Path.components_eq_nil_iff.mp hcomponents.symm)
  unfold FileTree.directoryOf
  rw [hparent]
  dsimp only
  rw [if_neg htext]
  exact Path.equiv_def.mpr hcomponents

/-- What has been written can be written again, for no link is on the way to the root. -/
theorem Wrote.replaced_put (h : o.Wrote answers t here root dir text) (hwell : t.WellFormed)
    (content : Bytes) (permissions : Nat) (new : Bytes) :
    ((t.put (buildFileName.bytes :: dir) (.file content permissions)).replace here
        (root.join buildFileName) new).error = none ∧
      (t.put (buildFileName.bytes :: dir) (.file content permissions)).locateParent here
        (root.join buildFileName).bytes = .ok (dir, .name buildFileName.bytes false) := by
  obtain ⟨loc, hrequested, hpath⟩ := locateRoot_cases h.located
  obtain ⟨-, -, -, -, hloc⟩ := FileTree.directoryAt_eq_some_iff.mp hrequested
  obtain ⟨-, ⟨opened, hopen⟩, target, htarget⟩ := FileTree.replace_done_iff.mp h.replaced
  obtain ⟨hnul, hold, name, above, rfl, hparent⟩ := FileTree.renameTarget_eq_ok_iff.mp htarget
  obtain ⟨rfl, hlast⟩ := Prod.mk.inj (Except.ok.inj (hparent.symm.trans h.parent))
  obtain ⟨rfl, -⟩ := FileTree.LastSegment.name.inj hlast
  obtain ⟨front, hbytes, hfront⟩ := bytes_buildFile (root_bytes_ne_nil h.located)
  have hroot := root_text_ne_nil h.located
  have hhead : root.bytes.head? = some slash := hpath ▸ FileTree.path_head loc
  have habsolute : FileTree.startOf here root.bytes = [] := if_pos hhead
  -- Both the file and its directory are named by the root's canonical path.
  have hparentPut : (t.put (buildFileName.bytes :: above) (.file content permissions)).locateParent
      here (root.join buildFileName).bytes = .ok (above, .name buildFileName.bytes false) := by
    refine FileTree.locateParent_put_of_canonical hwell hloc hold ?_ ?_ h.parent
    · rw [FileTree.startOf_bytes, isAbsolute_buildFile hroot, ← FileTree.startOf_bytes, habsolute]
    · rw [← hpath, hbytes, FileTree.splitLast_append_name front (by decide) (by decide) (by decide)]
      rcases hfront with hfront | hfront
      · rw [hfront]
      · rw [hfront, Text.pieces_append_sep, FileTree.solid, List.filter_append]
        exact List.append_nil _
  refine ⟨FileTree.replace_done_iff.mpr ⟨rfl, ⟨opened, ?_⟩, buildFileName.bytes :: above,
    FileTree.renameTarget_eq_ok_iff.mpr ⟨hnul, ?_, _, _, rfl, hparentPut⟩⟩, hparentPut⟩
  · rw [FileTree.openFor_eq_ok_iff] at hopen ⊢
    have hequiv := directoryOf_buildFile hroot
    refine ⟨hopen.1, FileTree.directoryAt_put_of_canonical hwell hloc hold ?_ ?_ hopen.2⟩
    · rw [FileTree.startOf_bytes, FileTree.isAbsolute_eq_of_equiv hequiv, ← FileTree.startOf_bytes,
        habsolute]
    · rw [← hpath, FileTree.solid_pieces_of_equiv hequiv]
  · exact FileTree.get?_put_ne_directory (List.cons_ne_nil _ _)

section put

variable (sink) (h : o.Wrote answers t here root dir text) (hwell : t.WellFormed)
  (hmode : o.toStdout = false) {content : Bytes} {permissions : Nat} {u : FileTree}
  (hu : u = t.put (buildFileName.bytes :: dir) (.file content permissions)) {new : Text}
include h hwell hmode hu

/-- What is generated with the build file there can be written. -/
theorem Wrote.run_of_generate (hroot : o.locateRoot u here = .ok root)
    (hnew : ((Layout.ofOptions o root).generate o answers.source u here).1.result = .ok new) :
    (o.run answers.source u here sink).result = .ok () ∧
      (o.run answers.source u here sink).tree.get? (buildFileName.bytes :: dir) =
        some (.file (Utf8.encode new) FileTree.readablePermissions) := by
  obtain ⟨hreplaced, hparent⟩ := h.replaced_put hwell content permissions (Utf8.encode new)
  rw [← hu] at hreplaced hparent
  have hprepare : o.prepare answers.source u here = (.ok (root, new), u) := by
    rw [prepare_answers hroot, hnew]
    rfl
  obtain ⟨-, htree, hresult⟩ := run_of_prepare sink none hmode (congrArg Prod.fst hprepare)
  rw [hprepare] at htree hresult
  rcases FileTree.replace_cases u here (root.join buildFileName) (Utf8.encode new) none with
    ⟨e, herror, -⟩ | ⟨name, dir', -, hfinal, -, hparent'⟩
  · cases hreplaced.symm.trans herror
  · obtain ⟨rfl, hlast⟩ := Prod.mk.inj (Except.ok.inj (hparent.symm.trans hparent'))
    obtain ⟨rfl, -⟩ := FileTree.LastSegment.name.inj hlast
    rw [hreplaced] at hresult
    rw [hfinal] at htree
    exact ⟨hresult, by rw [htree, FileTree.get?_put_self (List.cons_ne_nil _ _)]⟩

/-- A second run leaves the build file with a text exactly if it finds the root and generates the
text. -/
theorem Wrote.run_iff_generate : ((o.run answers.source u here sink).result = .ok () ∧
      (o.run answers.source u here sink).tree.get? (buildFileName.bytes :: dir) =
        some (.file (Utf8.encode new) FileTree.readablePermissions)) ↔
      o.locateRoot u here = .ok root ∧
        ((Layout.ofOptions o root).generate o answers.source u here).1.result = .ok new := by
  refine ⟨fun ⟨hok, hget⟩ => ?_, fun ⟨hroot, hnew⟩ =>
    h.run_of_generate sink hwell hmode hu hroot hnew⟩
  cases hprepare : (o.prepare answers.source u here).1 with
  | error e => cases (run_of_prepareError sink none hprepare).result.symm.trans hok
  | ok prepared =>
      obtain ⟨other, made⟩ := prepared
      obtain ⟨hroot, hgenerate, -⟩ := prepare_cases_of_ok hprepare
      obtain rfl := h.eq_of_locateRoot_put (hu ▸ hroot)
      obtain ⟨-, hmade⟩ := h.run_of_generate sink hwell hmode hu hroot hgenerate
      have hcontent := Option.some.inj (hmade.symm.trans hget)
      rw [← Utf8.encode_injective (Entry.file.inj hcontent).1]
      exact ⟨hroot, hgenerate⟩

end put

/-- A run on the files that a run has left succeeds too, and leaves the same at a place. -/
def Repeats (o : Options) (answers : PackageAnswers) (t : FileTree) (here : Location) (sink : Sink)
    (place : Location) : Prop :=
  (o.runAgain answers t here sink).result = .ok () ∧
    (o.runAgain answers t here sink).tree.get? place =
      (o.run answers.source t here sink).tree.get? place

/-- **A second run repeats the first**, unless the build file has become a source.  After a run
that has succeeded in writing, a run with the same settings and answers on the files that are left
succeeds too and leaves the build file with the same bytes, exactly if it finds the same root and
the same sources for every target.

If the name of the build file led, if anywhere, to a file, this is so exactly unless the extension
of the build file is asked for, the root is searched for the sources of a target, and there was no
build file before. -/
theorem runAgain_iff (o : Options) (answers : PackageAnswers) (t : FileTree) (here : Location)
    (sink : Sink) (hwell : t.WellFormed) (hsingle : t.Single) (hmode : o.toStdout = false)
    (hok : (o.run answers.source t here sink).result = .ok ()) :
    ∃ root dir text, o.locateRoot t here = .ok root ∧ t.directoryAt here root.bytes = some dir ∧
      (o.run answers.source t here sink).tree.get? (buildFileName.bytes :: dir) =
        some (.file (Utf8.encode text) FileTree.readablePermissions) ∧
      (o.Repeats answers t here sink (buildFileName.bytes :: dir) ↔
        o.locateRoot (o.run answers.source t here sink).tree here = .ok root ∧
        ∀ spec ∈ (Layout.ofOptions o root).targets,
          (discover (o.run answers.source t here sink).tree here root spec.subdir
            o.extensions).result = (discover t here root spec.subdir o.extensions).result) ∧
      (t.LeadsToFile dir buildFileName.bytes →
        (o.Repeats answers t here sink (buildFileName.bytes :: dir) ↔
          ¬ (buildFileExtension ∈ o.extensions ∧
            (Layout.ofOptions o root).Searches t here dir ∧
            t.get? (buildFileName.bytes :: dir) = none))) := by
  obtain ⟨root, dir, text, hwrote, htree⟩ := exists_wrote hmode hok
  have hget := htree ▸ FileTree.get?_put_self (List.cons_ne_nil buildFileName.bytes dir)
    (.file (Utf8.encode text) FileTree.readablePermissions)
  have hroot := root_text_ne_nil hwrote.located
  have hrepeats : o.Repeats answers t here sink (buildFileName.bytes :: dir) ↔
      o.locateRoot (o.run answers.source t here sink).tree here = .ok root ∧
        ((Layout.ofOptions o root).generate o answers.source
          (o.run answers.source t here sink).tree here).1.result = .ok text := by
    rw [Repeats, hget, runAgain]
    exact hwrote.run_iff_generate sink hwell hmode htree
  refine ⟨root, dir, text, hwrote.located, hwrote.directory, hget, ?_, fun hfile => ?_⟩
  · rw [hrepeats, htree]
    refine and_congr_right fun _ => ?_
    exact Layout.generate_put_iff hwell hsingle hroot hwrote.generated hwrote.directory
  · have hno := hfile.noDirectory hwell isPlainName_buildFileName
    rw [hrepeats, htree, and_iff_right (hwrote.locateRoot_put hno _ _)]
    constructor
    · rintro hagain ⟨hext, hsearches, hfree⟩
      exact Layout.generate_put_ne hwell hsingle hfile hroot hwrote.generated hwrote.directory hext
        hsearches hfree _ hagain
    · intro hnew
      refine Layout.generate_put hwell hsingle hfile hroot hwrote.generated ?_ _
      exact fun hext hsearches hfree => hnew ⟨hext, hsearches, hfree⟩

/-! ### Projects run twice -/

def projectPlace : Location := [Utf8.encode "p"]

def tidyProject : FileTree where
  entries := [(Utf8.encode "main.cc" :: Utf8.encode "src" :: projectPlace,
      .file [] FileTree.readablePermissions),
    (Utf8.encode "src" :: projectPlace, .directory), (projectPlace, .directory)]

theorem runAgain_tidyProject :
    (({} : Options).run freePackages.source tidyProject projectPlace).result = .ok () ∧
      (({} : Options).runAgain freePackages tidyProject projectPlace .open).result = .ok () ∧
      (({} : Options).runAgain freePackages tidyProject projectPlace .open).tree.get?
          (buildFileName.bytes :: projectPlace) =
        (({} : Options).run freePackages.source tidyProject projectPlace).tree.get?
          (buildFileName.bytes :: projectPlace) := by
  have hok : (({} : Options).run freePackages.source tidyProject projectPlace).result =
      .ok () := by decide +kernel
  have hroot : ({} : Options).locateRoot tidyProject projectPlace = .ok "/p" := by decide +kernel
  have hdir : tidyProject.directoryAt projectPlace (Path.bytes "/p") = some projectPlace := by
    decide +kernel
  have hmissing : tidyProject.entryAt projectPlace buildFileName.bytes =
      .error (.os .notFound) := by decide +kernel
  have hwell : tidyProject.WellFormed :=
    ⟨by unfold FileTree.WellNamed; decide, by decide, by decide⟩
  obtain ⟨root, dir, text, hroot', hdir', -, -, hiff⟩ := runAgain_iff {} freePackages tidyProject
    projectPlace .open hwell (by unfold FileTree.Single; decide) rfl hok
  obtain rfl := Except.ok.inj (hroot.symm.trans hroot')
  obtain rfl := Option.some.inj (hdir.symm.trans hdir')
  have hfile : tidyProject.LeadsToFile projectPlace buildFileName.bytes := fun e he =>
    nomatch hmissing.symm.trans he
  exact ⟨hok, (hiff hfile).mpr fun ⟨hext, _⟩ => absurd hext (by decide)⟩

/-- A project with its source in the root. -/
def flatProject : FileTree where
  entries := [(Utf8.encode "main.cc" :: projectPlace, .file [] FileTree.readablePermissions),
    (projectPlace, .directory)]

/-- Searches the root, for build files as well. -/
def flatOptions : Options :=
  { sourceDir := ".", extensions := ["cc", "ninja"], compileFlags := some "-O2", depFlags := "" }

/-- A build file of the project: what it compiles, and what it links for the program and for the
tests. -/
def flatFile (compiles : List Text) (program tests : Text) : Text :=
  ((["rule cxx", "  depfile = $out.d", "  command = c++ -O2 -c $in -o $out", "", "rule link",
    "  command = c++ $in -O2 -o $out", ""] : List Text) ++ compiles ++
    [[], ("build app: link" : Text) ++ program, ("build tests/run: link" : Text) ++ tests, [],
      "default app"]).flatMap (· ++ ['\n'])

def flatFirst : Text := flatFile ["build main.o: cxx main.cc"] " main.o" ""

def flatSecond : Text :=
  flatFile ["build build.o: cxx build.ninja", "build main.o: cxx main.cc"] " build.o main.o"
    " build.o"

/-- The project after the first run. -/
def flatBuilt : FileTree :=
  flatProject.put (buildFileName.bytes :: projectPlace)
    (.file (Utf8.encode flatFirst) FileTree.readablePermissions)

theorem items_flatBuilt : flatBuilt.items projectPlace =
    [⟨buildFileName.bytes, .file⟩, ⟨Utf8.encode "main.cc", .file⟩] := by
  have hchildren : (flatBuilt.children projectPlace).map (fun child =>
      (⟨child.1, flatBuilt.itemKind projectPlace child.1⟩ : FileTree.Item)) =
        [⟨buildFileName.bytes, .file⟩, ⟨Utf8.encode "main.cc", .file⟩] := by decide +kernel
  have hle : buildFileName.bytes ≤ Utf8.encode "main.cc" := by decide
  rw [FileTree.items_eq, hchildren]
  exact List.mergeSort_of_pairwise (by simpa using hle)

theorem generate_flatBuilt :
    ((Layout.ofOptions flatOptions "/p").generate flatOptions freePackages.source flatBuilt
      projectPlace).1.result = .ok flatSecond := by
  have happ : (Layout.ofOptions flatOptions "/p").Finds flatBuilt projectPlace
      ⟨"app", ".", .primary⟩ ⟨⟨"app", ".", .primary⟩, [⟨"/p/build.ninja"⟩, ⟨"/p/main.cc"⟩]⟩ := by
    refine ⟨rfl, discover_eq_ok_iff.mpr (Or.inr ⟨projectPlace, by decide +kernel, ?_⟩)⟩
    rw [items_flatBuilt]
    rfl
  have htests : (Layout.ofOptions flatOptions "/p").Finds flatBuilt projectPlace
      ⟨"tests/run", "tests", .secondary "app"⟩ ⟨⟨"tests/run", "tests", .secondary "app"⟩, []⟩ :=
    ⟨rfl, discover_eq_ok_iff.mpr (Or.inl ⟨by decide +kernel, rfl⟩)⟩
  exact Layout.generate_eq_ok_iff.mpr ⟨_, rfl, Layout.describe_eq_ok_iff.mpr
    ⟨_, .cons happ (.cons htests .nil), _, rfl, by decide +kernel⟩⟩

/-- With the root searched for build files, the second run takes the build file for a source. -/
theorem runAgain_flatProject :
    Options.parse ["--src-dir", ".", "--ext", "cc", "--ext", "ninja", "--cxxflags", "-O2",
        "--depflags", ""] = .ok flatOptions ∧
      (flatProject.WellFormed ∧ flatProject.Single ∧ flatOptions.toStdout = false) ∧
      (flatOptions.run freePackages.source flatProject projectPlace).result = .ok () ∧
      (flatOptions.run freePackages.source flatProject projectPlace).tree.get?
          (buildFileName.bytes :: projectPlace) =
        some (.file (Utf8.encode flatFirst) FileTree.readablePermissions) ∧
      (flatOptions.runAgain freePackages flatProject projectPlace .open).result = .ok () ∧
      (flatOptions.runAgain freePackages flatProject projectPlace .open).tree.get?
          (buildFileName.bytes :: projectPlace) =
        some (.file (Utf8.encode flatSecond) FileTree.readablePermissions) ∧
      Utf8.encode flatFirst ≠ Utf8.encode flatSecond := by
  have hwell : flatProject.WellFormed :=
    ⟨by unfold FileTree.WellNamed; decide, by decide, by decide⟩
  have hok : (flatOptions.run freePackages.source flatProject projectPlace).result = .ok () := by
    decide +kernel
  have hroot : flatOptions.locateRoot flatProject projectPlace = .ok "/p" := by decide +kernel
  have hdir : flatProject.directoryAt projectPlace (Path.bytes "/p") = some projectPlace := by
    decide +kernel
  have hfirst : (flatOptions.run freePackages.source flatProject projectPlace).tree.get?
      (buildFileName.bytes :: projectPlace) =
        some (.file (Utf8.encode flatFirst) FileTree.readablePermissions) := by decide +kernel
  have hno : flatProject.NoDirectory projectPlace buildFileName.bytes :=
    FileTree.noDirectory_of_free (by decide +kernel)
  obtain ⟨root, dir, text, hwrote, htree⟩ := exists_wrote rfl hok
  obtain rfl := Except.ok.inj (hroot.symm.trans hwrote.located)
  obtain rfl := Option.some.inj (hdir.symm.trans hwrote.directory)
  have hbuilt :
      (flatOptions.run freePackages.source flatProject projectPlace).tree = flatBuilt := by
    have hget := hfirst
    rw [htree, FileTree.get?_put_self (List.cons_ne_nil _ _)] at hget
    rw [htree, Option.some.inj hget]
    rfl
  obtain ⟨hagain, hsecond⟩ := hwrote.run_of_generate .open hwell rfl rfl
    (hwrote.locateRoot_put hno _ _) generate_flatBuilt
  have hsingle : flatProject.Single := by unfold FileTree.Single; decide
  refine ⟨rfl, ⟨hwell, hsingle, rfl⟩, hok, hfirst, ?_, ?_, by decide +kernel⟩
  · rw [runAgain, hbuilt]
    exact hagain
  · rw [runAgain, hbuilt]
    exact hsecond

end Options
end NinjaPlan
