import NinjaPlan.Project.Run
import NinjaPlan.Proofs.Files.Canonical
import NinjaPlan.Proofs.Files.Replace
import NinjaPlan.Proofs.Flags.Lookups
import NinjaPlan.Proofs.Path.Components

/-! # Printing and writing

A run that prints the build file and one that writes it do the same until they have its text:
`Options.prepare` gives the text, or the error that ends both, and the tree that the package
lookups leave.  This is the one they started with if lookups change no files.

Without a text neither does anything (`Outcome.Fails`).  With the text the one prints it and
changes nothing (`Outcome.Prints`); the other prints nothing, and fails without a change or
replaces one entry (`Outcome.Replaces`).  `Options.run_printing_writing` says that nothing else
can happen, whatever step of writing is made to fail.  While it is written, the build file is the
old one or the new one (`intact_buildFile`): its name is not that of a temporary file. -/

namespace NinjaPlan

/-! ### What runs leave -/

/-- Whether the run had a text when it failed. -/
def RunError.isLate : RunError → Bool
  | .write .. | .print .. => true
  | _ => false

namespace Outcome

/-- The run fails; it has printed nothing and leaves the tree. -/
structure Fails (r : Outcome) (t : FileTree) (e : RunError) : Prop where
  result : r.result = .error e
  printed : r.printed = []
  tree : r.tree = t

/-- The run prints the text as far as its sink allows, and leaves the tree. -/
structure Prints (r : Outcome) (t : FileTree) (sink : Sink) (text : Text) : Prop where
  result : r.result = (sink.print text).map fun _ => ()
  printed : r.printed = (sink.print text).toOption.getD []
  tree : r.tree = t
  /-- A sink that takes all gets the whole text. -/
  whole : sink = .open → r.result = .ok () ∧ r.printed = text

/-- The run prints nothing and puts a file with the text at a location; everything else is as in
the tree. -/
structure Replaces (r : Outcome) (t : FileTree) (place : Location) (text : Text) : Prop where
  result : r.result = .ok ()
  printed : r.printed = []
  tree : ∀ loc, r.tree.get? loc =
    if loc = place then some (.file (Utf8.encode text) FileTree.readablePermissions) else t.get? loc

end Outcome

/-! ### The build file in its directory -/

variable {o : Options} {source : PackageSource} {t : FileTree} {here dir : Location} {root : Path}

theorem Location.canonicalPath_eq_ok_iff {loc : Location} {path : Bytes} :
    Location.canonicalPath loc = .ok path ↔
      (Location.path loc).length < pathLimit ∧ Location.path loc = path := by
  unfold canonicalPath
  split_ifs with hlong
  · simp [Nat.not_lt.mpr hlong]
  · simp [Nat.not_le.mp hlong]

theorem Options.locateRoot_cases (h : o.locateRoot t here = .ok root) :
    ∃ loc, t.directoryAt here (Path.bytes ⟨o.root.getD "."⟩) = some loc ∧
      root.bytes = Location.path loc := by
  unfold locateRoot at h
  dsimp only at h
  split at h
  · cases h
  · next loc hdir =>
      split at h
      · cases h
      · next path hpath =>
          obtain ⟨-, rfl⟩ := Location.canonicalPath_eq_ok_iff.mp hpath
          split at h
          · cases h
          · next text htext =>
              obtain rfl := Except.ok.inj h
              exact ⟨loc, hdir, Utf8.encode_of_decode htext⟩

theorem Options.root_bytes_ne_nil (h : o.locateRoot t here = .ok root) : root.bytes ≠ [] := by
  obtain ⟨loc, -, hbytes⟩ := locateRoot_cases h
  intro hempty
  have hhead := FileTree.path_head loc
  rw [← hbytes, hempty] at hhead
  cases hhead

theorem Options.root_text_ne_nil (h : o.locateRoot t here = .ok root) : root.text ≠ [] := by
  intro hempty
  exact root_bytes_ne_nil h (congrArg Utf8.encode hempty)

theorem bytes_buildFile (hroot : root.bytes ≠ []) : ∃ above : Bytes,
    (root.join buildFileName).bytes = above ++ slash :: buildFileName.bytes ∧
      (root.bytes = above ∨ root.bytes = above ++ [slash]) := by
  have htext : root.text ≠ [] := by
    intro hempty
    exact hroot (congrArg Utf8.encode hempty)
  obtain ⟨d, hjoin, hd⟩ := Path.join_text (q := buildFileName) htext rfl
  refine ⟨Utf8.encode d, ?_, hd.imp (congrArg Utf8.encode ·) fun hslash => ?_⟩
  · rw [hjoin, Path.bytes, Utf8.encode_append]
    rfl
  · rw [Path.bytes, hslash, Utf8.encode_append]
    rfl

theorem directoryAt_of_buildFile (hroot : root.bytes ≠ []) {last : FileTree.LastSegment}
    (hnul : 0 ∉ (root.join buildFileName).bytes)
    (h : t.locateParent here (root.join buildFileName).bytes = .ok (dir, last)) :
    last = .name buildFileName.bytes false ∧ t.directoryAt here root.bytes = some dir := by
  obtain ⟨above, hbytes, habove⟩ := bytes_buildFile hroot
  rw [hbytes] at h hnul
  obtain ⟨hlast, hslash, hplain⟩ := FileTree.directoryAt_of_locateParent (by decide) (by decide)
    (by decide) hnul h
  refine ⟨hlast, ?_⟩
  rcases habove with habove | habove
  · rw [habove] at hroot ⊢
    exact hplain hroot
  · rw [habove]
    exact hslash

theorem not_isTemporaryName_buildFile : ¬ FileTree.IsTemporaryName buildFileName.bytes := by
  rintro ⟨middle, -, hname⟩
  have hhead : some 'b' = some '.' := congrArg List.head? (Utf8.encode_injective hname)
  exact absurd hhead (by decide)

/-- Nobody finds anything else at the path of a build file than the old file or the new one. -/
theorem intact_buildFile (hroot : root.bytes ≠ []) {content : Bytes} {s : FileTree.Replacing}
    (h : FileTree.Moves here (root.join buildFileName) content ⟨.begun, t⟩ s) :
    FileTree.Intact t here (root.join buildFileName) content s := by
  have hstage := FileTree.stage_of_moves h
  refine hstage.intact (hstage.not_names ?_)
  rintro ⟨name, dir, ⟨name', dir', slashed, hparent, hplace⟩, -, hname⟩
  obtain ⟨above, hbytes, -⟩ := bytes_buildFile hroot
  obtain ⟨-, -, -, -, hlast, -⟩ := FileTree.locateParent_eq_ok_iff.mp hparent
  rw [hbytes, FileTree.splitLast_append_name above (by decide) (by decide) (by decide)] at hlast
  obtain ⟨rfl, -⟩ := FileTree.LastSegment.name.inj hlast
  obtain ⟨rfl, -⟩ := List.cons.inj hplace
  exact not_isTemporaryName_buildFile hname

/-! ### Up to the text -/

/-- Nothing is put out: whatever goes wrong goes wrong before there is a text, and no file is
written. -/
structure Logged.Early {α : Type} (x : Logged RunError α) : Prop where
  error : ∀ e, x.result = .error e → e.isLate = false
  events : ∀ path, Event.fileWritten path ∉ x.events

namespace Logged

variable {α β : Type}

theorem early_ok {a : α} {events : List Event} (hevents : ∀ path, Event.fileWritten path ∉ events) :
    Early ⟨events, .ok a⟩ :=
  ⟨nofun, hevents⟩

theorem early_error {e : RunError} {events : List Event} (hlate : e.isLate = false)
    (hevents : ∀ path, Event.fileWritten path ∉ events) :
    Early (⟨events, .error e⟩ : Logged RunError α) where
  error := by
    intro e' he
    obtain rfl := Except.error.inj he
    exact hlate
  events := hevents

theorem early_pure (a : α) : Early (pure a) := early_ok fun _ => List.not_mem_nil

theorem mem_events_bind {x : Logged RunError α} {f : α → Logged RunError β} {event : Event}
    (h : event ∈ (x >>= f).events) :
    event ∈ x.events ∨ ∃ a, x.result = .ok a ∧ event ∈ (f a).events := by
  change event ∈ (Logged.bind x f).events at h
  unfold Logged.bind at h
  split at h
  · exact Or.inl h
  · next a ha => exact (List.mem_append.mp h).imp_right fun h => ⟨a, ha, h⟩

theorem Early.bind {x : Logged RunError α} {f : α → Logged RunError β} (hx : x.Early)
    (hf : ∀ a, (f a).Early) : (x >>= f).Early where
  error := by
    intro e he
    rw [result_bind] at he
    cases hresult : x.result with
    | error e' =>
        rw [hresult] at he
        obtain rfl := Except.error.inj he
        exact hx.error e' hresult
    | ok a =>
        rw [hresult] at he
        exact (hf a).error e he
  events := by
    intro path hmem
    rcases mem_events_bind hmem with hmem | ⟨a, -, hmem⟩
    · exact hx.events path hmem
    · exact (hf a).events path hmem

end Logged

namespace Layout

variable (l : Layout)

theorem early_findFlags (o : Options) (source : PackageSource) (t : FileTree) :
    (l.findFlags o source t).1.Early := by
  unfold findFlags
  dsimp only
  split
  · exact Logged.early_error rfl (by simp)
  · exact Logged.early_ok (by simp)

theorem early_findSources (t : FileTree) (here : Location) (spec : TargetSpec) :
    (l.findSources t here spec).Early := by
  unfold findSources discover
  dsimp only
  cases t.sources? here (sourceDirectory l.root spec.subdir) l.extensions with
  | none => exact Logged.early_ok (by simp)
  | some found =>
      cases found with
      | error cause => exact Logged.early_error rfl (by simp)
      | ok sources => exact Logged.early_ok (by simp)

theorem early_findAll (t : FileTree) (here : Location) (specs : List TargetSpec) :
    (l.findAll t here specs).Early := by
  induction specs with
  | nil => exact Logged.early_pure []
  | cons spec rest ih =>
      exact (l.early_findSources t here spec).bind fun target =>
        ih.bind fun targets => Logged.early_pure _

theorem early_planTargets (targets : List Target) : (l.planTargets targets).Early := by
  unfold planTargets
  dsimp only
  split
  · exact Logged.early_error rfl (by simp)
  · exact Logged.early_ok (by simp)

theorem early_describe (t : FileTree) (here : Location) (config : FlagConfig) :
    (l.describe t here config).Early := by
  refine (l.early_findAll t here l.targets).bind fun targets =>
    (l.early_planTargets targets).bind fun plan => ?_
  split
  · exact Logged.early_error rfl fun _ => List.not_mem_nil
  · exact Logged.early_pure _

theorem early_generate (o : Options) (source : PackageSource) (t : FileTree) (here : Location) :
    (l.generate o source t here).1.Early :=
  (l.early_findFlags o source t).bind fun config => l.early_describe _ here config

end Layout

/-! ### Runs -/

namespace Options

/-- What a run has before it puts anything out: its root and the text of the build file, or the
error that ends it; and the tree that it has by then. -/
def prepare (o : Options) (source : PackageSource) (t : FileTree) (here : Location) :
    Except RunError (Path × Text) × FileTree :=
  match o.locateRoot t here with
  | .error e => (.error (.root e), t)
  | .ok root =>
    let (generated, t) := (Layout.ofOptions o root).generate o source t here
    (generated.result.map (root, ·), t)

theorem leads_prepare (o : Options) (source : PackageSource) (t : FileTree) (here : Location) :
    source.Leads t (o.prepare source t here).2 := by
  unfold prepare
  split
  · exact source.leads_refl t
  · exact (o.flagRequest _).leads_resolve source t

theorem prepare_cases_of_error {e : RunError} (h : (o.prepare source t here).1 = .error e) :
    (∃ cause, o.locateRoot t here = .error cause ∧ e = .root cause ∧
      (o.prepare source t here).2 = t) ∨
    ∃ root, o.locateRoot t here = .ok root ∧
      ((Layout.ofOptions o root).generate o source t here).1.result = .error e ∧
      (o.prepare source t here).2 = ((Layout.ofOptions o root).generate o source t here).2 := by
  unfold prepare at h ⊢
  cases hroot : o.locateRoot t here with
  | error cause =>
      rw [hroot] at h
      exact Or.inl ⟨cause, rfl, (Except.error.inj h).symm, rfl⟩
  | ok root =>
      rw [hroot] at h
      dsimp only at h
      cases htext : ((Layout.ofOptions o root).generate o source t here).1.result with
      | error e' =>
          rw [htext] at h
          obtain rfl := Except.error.inj h
          exact Or.inr ⟨root, rfl, htext, rfl⟩
      | ok text =>
          rw [htext] at h
          cases h

theorem prepare_cases_of_ok {text : Text} (h : (o.prepare source t here).1 = .ok (root, text)) :
    o.locateRoot t here = .ok root ∧
      ((Layout.ofOptions o root).generate o source t here).1.result = .ok text ∧
      (o.prepare source t here).2 = ((Layout.ofOptions o root).generate o source t here).2 := by
  unfold prepare at h ⊢
  cases hroot : o.locateRoot t here with
  | error cause =>
      rw [hroot] at h
      cases h
  | ok root' =>
      rw [hroot] at h
      dsimp only at h
      cases htext : ((Layout.ofOptions o root').generate o source t here).1.result with
      | error e =>
          rw [htext] at h
          cases h
      | ok text' =>
          rw [htext] at h
          obtain ⟨rfl, rfl⟩ := Prod.mk.inj (Except.ok.inj h)
          exact ⟨rfl, htext, rfl⟩

/-- What fails before there is a text does not fail at the output. -/
theorem isLate_of_prepare {e : RunError} (h : (o.prepare source t here).1 = .error e) :
    e.isLate = false := by
  rcases prepare_cases_of_error h with ⟨cause, -, rfl, -⟩ | ⟨root, -, htext, -⟩
  · rfl
  · exact ((Layout.ofOptions o root).early_generate o source t here).error e htext

variable (sink : Sink) (fault : Option FileTree.Fault) {text : Text}

theorem run_of_prepareError {e : RunError} (h : (o.prepare source t here).1 = .error e) :
    (o.run source t here sink fault).Fails (o.prepare source t here).2 e := by
  rcases prepare_cases_of_error h with ⟨cause, hroot, rfl, htree⟩ | ⟨root, hroot, htext, htree⟩
  · rw [htree]
    unfold run
    rw [hroot]
    exact ⟨rfl, rfl, rfl⟩
  · rw [htree]
    unfold run
    rw [hroot]
    dsimp only
    rw [htext]
    exact ⟨rfl, rfl, rfl⟩

theorem run_printing (hmode : o.toStdout = true)
    (h : (o.prepare source t here).1 = .ok (root, text)) :
    (o.run source t here sink fault).Prints (o.prepare source t here).2 sink text := by
  obtain ⟨hroot, htext, htree⟩ := prepare_cases_of_ok h
  rw [htree]
  unfold run
  rw [hroot]
  dsimp only
  rw [htext]
  dsimp only
  rw [if_pos hmode]
  cases hprint : sink.print text with
  | error e =>
      refine ⟨by rw [hprint]; rfl, by rw [hprint]; rfl, rfl, ?_⟩
      rintro rfl
      cases hprint
  | ok printed =>
      refine ⟨by rw [hprint]; rfl, by rw [hprint]; rfl, rfl, ?_⟩
      rintro rfl
      exact ⟨rfl, (Except.ok.inj hprint).symm⟩

/-- A run that writes ends with the replacement of the build file. -/
theorem run_of_prepare (hmode : o.toStdout = false)
    (h : (o.prepare source t here).1 = .ok (root, text)) :
    (o.run source t here sink fault).printed = [] ∧
      (o.run source t here sink fault).tree = ((o.prepare source t here).2.replace here
        (root.join buildFileName) (Utf8.encode text) fault).final ∧
      (o.run source t here sink fault).result =
        match ((o.prepare source t here).2.replace here (root.join buildFileName)
          (Utf8.encode text) fault).error with
        | none => .ok ()
        | some e => .error (.write (root.join buildFileName) e) := by
  obtain ⟨hroot, htext, htree⟩ := prepare_cases_of_ok h
  rw [htree]
  unfold run
  rw [hroot]
  dsimp only
  rw [htext]
  dsimp only
  rw [if_neg (by simp [hmode])]
  unfold writeBuildFile
  dsimp only
  cases (((Layout.ofOptions o root).generate o source t here).2.replace here
    (root.join buildFileName) (Utf8.encode text) fault).error with
  | none => exact ⟨rfl, rfl, rfl⟩
  | some e => exact ⟨rfl, rfl, rfl⟩

/-- A run that writes fails and leaves the tree, or it replaces the build file; with a fault it
fails. -/
theorem run_writing (hmode : o.toStdout = false)
    (h : (o.prepare source t here).1 = .ok (root, text)) :
    (∃ e, (o.run source t here sink fault).Fails (o.prepare source t here).2
      (.write (root.join buildFileName) e)) ∨
    fault = none ∧ ∃ dir, (o.prepare source t here).2.directoryAt here root.bytes = some dir ∧
      (o.run source t here sink fault).Replaces (o.prepare source t here).2
        (buildFileName.bytes :: dir) text := by
  obtain ⟨hprinted, htree, hresult⟩ := run_of_prepare sink fault hmode h
  rcases FileTree.replace_cases (o.prepare source t here).2 here (root.join buildFileName)
    (Utf8.encode text) fault with ⟨e, herror, hfinal⟩ | ⟨name, dir, herror, hfinal, hnul, hparent⟩
  · rw [herror] at hresult
    exact Or.inl ⟨e, hresult, hprinted, htree.trans hfinal⟩
  · obtain ⟨hname, hdir⟩ := directoryAt_of_buildFile
      (root_bytes_ne_nil (prepare_cases_of_ok h).1) hnul hparent
    obtain ⟨rfl, -⟩ := FileTree.LastSegment.name.inj hname
    rw [herror] at hresult
    refine Or.inr ⟨(FileTree.replace_done_iff.mp herror).1, dir, hdir, hresult, hprinted,
      fun loc => ?_⟩
    rw [htree, hfinal]
    exact FileTree.get?_put _ (List.cons_ne_nil _ _) _ loc

/-- A run tells that a file is written exactly if it has succeeded in writing the build file. -/
theorem fileWritten_mem_run_iff {path : Path} :
    Event.fileWritten path ∈ (o.run source t here sink fault).events ↔
      (o.run source t here sink fault).result = .ok () ∧ o.toStdout = false ∧
        ∃ root, o.locateRoot t here = .ok root ∧ path = root.join buildFileName := by
  unfold run
  cases hroot : o.locateRoot t here with
  | error e => simp
  | ok root =>
      have hearly := (Layout.ofOptions o root).early_generate o source t here
      dsimp only
      cases htext : ((Layout.ofOptions o root).generate o source t here).1.result with
      | error e => simp [hearly.events]
      | ok text =>
          dsimp only
          cases hmode : o.toStdout with
          | true =>
              rw [if_pos rfl]
              cases sink.print text <;> simp [hearly.events]
          | false =>
              rw [if_neg Bool.false_ne_true]
              unfold writeBuildFile
              dsimp only
              cases (((Layout.ofOptions o root).generate o source t here).2.replace here
                (root.join buildFileName) (Utf8.encode text) fault).error <;>
                simp [hearly.events, Except.mapError]

/-- **Printing and writing differ in the output alone.**  A run that prints and one that writes,
with the same settings on the same files, prepare the same.  If this fails, it fails before there
is a text, and both end with its error and do nothing.  If there is a text, the first prints it
without touching a file, while the second prints nothing and either fails without touching a file
or replaces the build file of the root.  It fails if any step of writing is made to fail.  The files
touched are those that the lookups leave, which are as they were if lookups change none.

The build file is in the directory to which the root leads.  In a well-formed tree this is the
directory that was asked for. -/
theorem run_printing_writing (o : Options) (source : PackageSource) (t : FileTree)
    (here : Location) (sink : Sink) (fault : Option FileTree.Fault) :
    source.Leads t (o.prepare source t here).2 ∧
    (source.KeepsFiles → (o.prepare source t here).2 = t) ∧
    (∀ e, (o.prepare source t here).1 = .error e → e.isLate = false ∧
      ({ o with toStdout := true }.run source t here sink fault).Fails
        (o.prepare source t here).2 e ∧
      ({ o with toStdout := false }.run source t here sink fault).Fails
        (o.prepare source t here).2 e) ∧
    ∀ root text, (o.prepare source t here).1 = .ok (root, text) →
      ({ o with toStdout := true }.run source t here sink fault).Prints (o.prepare source t here).2
        sink text ∧
      ((∃ e, ({ o with toStdout := false }.run source t here sink fault).Fails
          (o.prepare source t here).2 (.write (root.join buildFileName) e)) ∨
        fault = none ∧
        ∃ dir, (o.prepare source t here).2.directoryAt here root.bytes = some dir ∧
          ((o.prepare source t here).2.WellFormed → ∀ loc,
            t.directoryAt here (Path.bytes ⟨o.root.getD "."⟩) = some loc →
            (o.prepare source t here).2.get? loc = some .directory → dir = loc) ∧
          ({ o with toStdout := false }.run source t here sink fault).Replaces
            (o.prepare source t here).2 (buildFileName.bytes :: dir) text) := by
  have hleads := o.leads_prepare source t here
  refine ⟨hleads, hleads.eq_of_keepsFiles, fun e he => ?_, fun root text htext => ?_⟩
  · exact ⟨isLate_of_prepare he,
      run_of_prepareError (o := { o with toStdout := true }) sink fault he,
      run_of_prepareError (o := { o with toStdout := false }) sink fault he⟩
  · refine ⟨run_printing (o := { o with toStdout := true }) sink fault rfl htext, ?_⟩
    refine (run_writing (o := { o with toStdout := false }) sink fault rfl htext).imp_right ?_
    rintro ⟨hfault, dir, hdir, hreplaces⟩
    refine ⟨hfault, dir, hdir, fun hwell loc hloc hget => ?_, hreplaces⟩
    -- The root is a path found before the lookups, and leads to `dir` after them.
    obtain ⟨loc', hloc', hbytes⟩ := locateRoot_cases (prepare_cases_of_ok htext).1
    obtain rfl := Option.some.inj (hloc.symm.trans hloc')
    rw [hbytes] at hdir
    exact FileTree.directoryAt_path hwell hget hdir

/-- No package requires anything. -/
def freePackages : PackageAnswers := fun _ _ => .ok []

/-- A root directory with an old build file. -/
def builtRoot : FileTree :=
  ⟨[([buildFileName.bytes], .file (Utf8.encode "old") FileTree.readablePermissions)]⟩

/-- The text of a new build file is printed, or it replaces the old one; the old one stays if the
device is full after some bytes of the new one. -/
theorem run_printing_writing_builtRoot :
    ∃ text ≠ [],
      (({ toStdout := true } : Options).run freePackages.source builtRoot []).Prints builtRoot .open
        text ∧
      (({} : Options).run freePackages.source builtRoot []).Replaces builtRoot
        [buildFileName.bytes] text ∧
      ∃ e, (({} : Options).run freePackages.source builtRoot [] .open
        (some ⟨.write, .os .noSpace, 5⟩)).Fails builtRoot (.write "/build.ninja" e) := by
  obtain ⟨text, htext, hprepare⟩ : ∃ text ≠ [],
      (({} : Options).prepare freePackages.source builtRoot []).1 = .ok ("/", text) :=
    ⟨_, List.cons_ne_nil _ _, rfl⟩
  have hdone : (({} : Options).run freePackages.source builtRoot []).result = .ok () := by
    decide +kernel
  have hdir : builtRoot.directoryAt [] (Path.bytes "/") = some [] := by decide +kernel
  obtain ⟨-, hkeeps, -, hruns⟩ := run_printing_writing {} freePackages.source builtRoot [] .open none
  obtain ⟨-, -, -, hfaulty⟩ := run_printing_writing {} freePackages.source builtRoot [] .open
    (some ⟨.write, .os .noSpace, 5⟩)
  obtain ⟨hprints, hwrites⟩ := hruns "/" text hprepare
  obtain ⟨-, hfails⟩ := hfaulty "/" text hprepare
  rw [hkeeps (PackageSource.keepsFiles_of_answers freePackages)] at hprints hwrites hfails
  refine ⟨text, htext, hprints, ?_, hfails.resolve_right nofun⟩
  rcases hwrites with ⟨e, he⟩ | ⟨-, dir, hdir', -, hreplaces⟩
  · cases he.result.symm.trans hdone
  · obtain rfl := Option.some.inj (hdir'.symm.trans hdir)
    exact hreplaces

end Options
end NinjaPlan
