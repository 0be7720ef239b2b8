import NinjaPlan.Project.Report
import NinjaPlan.Proofs.Project.Modes

/-! # What the program reports

The program ends in one of three ways (`report_cases`).  It refuses its arguments, `Report.Refused`,
and touches nothing; or the run that they ask for is `Report.Done`, and the text of the build file is
printed or in its place; or it has `Report.Failed`, with a message, and has put out nothing.

The exit code tells which: 0, 1 or 2.  A message is given exactly if it is not 0
(`report_message_isSome_iff`), and then all files are as they were, if package lookups change none
(`report_of_exitCode_ne_zero`).  A talkative run leaves a record of level `info` exactly if it has
written the build file (`report_info_iff`). -/

namespace NinjaPlan

namespace Report

/-- No run is asked for; what is printed is what is asked for instead. -/
structure Refused (r : Report) (t : FileTree) (e : Options.UsageError) : Prop where
  tree : r.tree = t
  records : r.records = []
  /-- Help and version are asked for, and everything else is a fault. -/
  exitCode : r.exitCode = if e = .helpWanted ∨ e = .versionWanted then 0 else 2
  /-- Who gets what is asked for is told nothing more. -/
  wanted : e = .helpWanted ∨ e = .versionWanted → r.printed ≠ [] ∧ r.message = none
  /-- Who makes a fault is told of it. -/
  fault : ¬ (e = .helpWanted ∨ e = .versionWanted) → r.printed = [] ∧ r.message = e.message ∧
    r.message.isSome = true

/-- The text of the build file is put out as the settings say. -/
structure Done (r : Report) (o : Options) (source : PackageSource) (t : FileTree) (here : Location)
    (sink : Sink) : Prop where
  exitCode : r.exitCode = 0
  message : r.message = none
  /-- There is a text; it is printed, or it is the only file that is new. -/
  output : ∃ root text, (o.prepare source t here).1 = .ok (root, text) ∧
    (o.toStdout = true → r.tree = (o.prepare source t here).2 ∧ sink.print text = .ok r.printed) ∧
    (o.toStdout = false → r.printed = [] ∧
      ∃ dir, (o.prepare source t here).2.directoryAt here root.bytes = some dir ∧
        ∀ loc, r.tree.get? loc =
          if loc = buildFileName.bytes :: dir then
            some (.file (Utf8.encode text) FileTree.readablePermissions)
          else (o.prepare source t here).2.get? loc)

/-- The run has failed; the user is told why, and nothing is put out. -/
structure Failed (r : Report) (o : Options) (source : PackageSource) (t : FileTree)
    (here : Location) : Prop where
  exitCode : r.exitCode = 1
  message : ∃ e : RunError, r.message = some (joinChain e.chain)
  printed : r.printed = []
  tree : r.tree = (o.prepare source t here).2

end Report

variable {source : PackageSource} {program : Text} {t : FileTree} {here : Location} {sink : Sink}
  {fault : Option FileTree.Fault}

theorem Options.UsageError.refused (e : Options.UsageError) (t : FileTree) :
    (e.report t).Refused t e := by
  cases e with
  | helpWanted | versionWanted => exact ⟨rfl, rfl, rfl, fun _ => ⟨nofun, rfl⟩, fun h => by simp at h⟩
  | unknownArgument | missingValue | repeated | unexpectedValue =>
      exact ⟨rfl, rfl, rfl, fun h => by simp at h, fun _ => ⟨rfl, rfl, rfl⟩⟩

namespace Options

variable {o : Options}

theorem records_of_not_verbose (h : o.verbose = false) (program : Text) (events : List Event) :
    o.records program events = [] := by
  simp [records, h]

/-- Only that a file is written is told at this level. -/
theorem record?_info_iff (program : Text) {event : Event} :
    (∃ r, event.record? (some program) = some r ∧ r.level = .info) ↔
      ∃ path, event = .fileWritten path := by
  cases event <;> simp [Event.record?]

theorem report_exitCode_eq_zero_iff : (o.report source program t here sink fault).exitCode = 0 ↔
    (o.run source t here sink fault).result = .ok () := by
  unfold report
  dsimp only
  cases (o.run source t here sink fault).result <;> simp

theorem report_records : (o.report source program t here sink fault).records =
    o.records program (o.run source t here sink fault).events := by
  unfold report
  dsimp only
  split <;> rfl

theorem failed_of_run {e : RunError}
    (h : (o.run source t here sink fault).Fails (o.prepare source t here).2 e) :
    (o.report source program t here sink fault).Failed o source t here := by
  unfold report
  dsimp only
  rw [h.result]
  exact ⟨rfl, ⟨e, rfl⟩, h.printed, h.tree⟩

/-- A run is reported as it went. -/
theorem report_cases (o : Options) (source : PackageSource) (program : Text) (t : FileTree)
    (here : Location) (sink : Sink) (fault : Option FileTree.Fault) :
    (o.report source program t here sink fault).Done o source t here sink ∨
      (o.report source program t here sink fault).Failed o source t here := by
  cases hprepare : (o.prepare source t here).1 with
  | error e => exact Or.inr (failed_of_run (run_of_prepareError sink fault hprepare))
  | ok prepared =>
      obtain ⟨root, text⟩ := prepared
      cases hmode : o.toStdout with
      | true =>
          have hprints := run_printing sink fault hmode hprepare
          cases hprint : sink.print text with
          | error e =>
              refine Or.inr (failed_of_run (e := e) ⟨?_, ?_, hprints.tree⟩)
              · rw [hprints.result, hprint]
                rfl
              · rw [hprints.printed, hprint]
                rfl
          | ok printed =>
              refine Or.inl ?_
              unfold report
              dsimp only
              rw [hprints.result, hprints.printed, hprint]
              exact ⟨rfl, rfl, root, text, hprepare, fun _ => ⟨hprints.tree, hprint⟩,
                fun h => nomatch hmode.symm.trans h⟩
      | false =>
          rcases run_writing sink fault hmode hprepare with ⟨e, hfails⟩ | ⟨-, dir, hdir, hreplaces⟩
          · exact Or.inr (failed_of_run hfails)
          · refine Or.inl ?_
            unfold report
            dsimp only
            rw [hreplaces.result]
            exact ⟨rfl, rfl, root, text, hprepare, fun h => (nomatch hmode.symm.trans h),
              fun _ => ⟨hreplaces.printed, dir, hdir, hreplaces.tree⟩⟩

end Options

/-- **The program reports what it has done.**  Either it takes no run from its arguments and leaves
everything as it is, or it runs with the settings that they spell.  Then it has put out the text of
a build file, or it says why there is none and has put out nothing.  Only a talkative run says
more. -/
theorem report_cases (source : PackageSource) (program : Text) (t : FileTree) (here : Location)
    (args : List Text) (sink : Sink) (fault : Option FileTree.Fault) :
    (∃ e, Options.parse args = .error e ∧
      (report source program t here args sink fault).Refused t e) ∨
    ∃ o, Options.parse args = .ok o ∧
      (o.verbose = false → (report source program t here args sink fault).records = []) ∧
      ((report source program t here args sink fault).Done o source t here sink ∨
        (report source program t here args sink fault).Failed o source t here) := by
  unfold report
  cases hparse : Options.parse args with
  | error e => exact Or.inl ⟨e, rfl, e.refused t⟩
  | ok o =>
      refine Or.inr ⟨o, rfl, fun hquiet => ?_, o.report_cases source program t here sink fault⟩
      exact Options.report_records.trans (Options.records_of_not_verbose hquiet _ _)

/-- The program gives a message exactly if its exit code is not 0. -/
theorem report_message_isSome_iff (args : List Text) :
    (report source program t here args sink fault).message.isSome = true ↔
      (report source program t here args sink fault).exitCode ≠ 0 := by
  rcases report_cases source program t here args sink fault with
    ⟨e, -, hrefused⟩ | ⟨o, -, -, hdone | hfailed⟩
  · by_cases hwanted : e = .helpWanted ∨ e = .versionWanted
    · simp [hrefused.exitCode, hwanted, (hrefused.wanted hwanted).2]
    · simp [hrefused.exitCode, hwanted, (hrefused.fault hwanted).2.2]
  · simp [hdone.exitCode, hdone.message]
  · obtain ⟨e, he⟩ := hfailed.message
    simp [hfailed.exitCode, he]

/-- A program that fails leaves the files as lookups do: with lookups that change none, as they
were. -/
theorem report_of_exitCode_ne_zero (hkeeps : source.KeepsFiles) (args : List Text)
    (h : (report source program t here args sink fault).exitCode ≠ 0) :
    (report source program t here args sink fault).tree = t ∧
      (report source program t here args sink fault).printed = [] := by
  rcases report_cases source program t here args sink fault with
    ⟨e, -, hrefused⟩ | ⟨o, -, -, hdone | hfailed⟩
  · by_cases hwanted : e = .helpWanted ∨ e = .versionWanted
    · rw [hrefused.exitCode, if_pos hwanted] at h
      exact absurd rfl h
    · exact ⟨hrefused.tree, (hrefused.fault hwanted).1⟩
  · exact absurd hdone.exitCode h
  · exact ⟨hfailed.tree.trans ((o.leads_prepare source t here).eq_of_keepsFiles hkeeps),
      hfailed.printed⟩

/-- A talkative run says at the level `info` that it has written the build file, and this only. -/
theorem report_info_iff {args : List Text} {o : Options} (hparse : Options.parse args = .ok o)
    (hverbose : o.verbose = true) :
    (∃ r ∈ (report source program t here args sink fault).records, r.level = .info) ↔
      (report source program t here args sink fault).exitCode = 0 ∧ o.toStdout = false := by
  have hreport : report source program t here args sink fault =
      o.report source program t here sink fault := by
    unfold report
    rw [hparse]
  rw [hreport, Options.report_records, Options.report_exitCode_eq_zero_iff, Options.records,
    if_pos hverbose]
  simp only [List.mem_filterMap]
  constructor
  · rintro ⟨r, ⟨event, hevent, hr⟩, hlevel⟩
    obtain ⟨path, rfl⟩ := (Options.record?_info_iff program).mp ⟨r, hr, hlevel⟩
    obtain ⟨hresult, hmode, -⟩ := (Options.fileWritten_mem_run_iff sink fault).mp hevent
    exact ⟨hresult, hmode⟩
  · rintro ⟨hresult, hmode⟩
    cases hroot : o.locateRoot t here with
    | error e =>
        unfold Options.run at hresult
        rw [hroot] at hresult
        cases hresult
    | ok root =>
        have hevent := (Options.fileWritten_mem_run_iff sink fault).mpr
          ⟨hresult, hmode, root, hroot, rfl⟩
        obtain ⟨r, hr, hlevel⟩ := (Options.record?_info_iff program).mpr ⟨_, rfl⟩
        exact ⟨r, ⟨_, hevent, hr⟩, hlevel⟩

end NinjaPlan
