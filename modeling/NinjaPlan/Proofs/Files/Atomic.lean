import NinjaPlan.Proofs.Files.Replace

/-! # Replacing at once

A replacement is done at once or not at all (`replace_atomic`): it succeeds if no step fails, a
replacement that fails leaves every file as it was, and one that succeeds puts the new file at the
place that the path names and changes nothing else.  In every state on the way the path still has
its old file, until it has the new one, whole.

The last holds for every path that may not be taken for that of a temporary file.  The proviso is
needed (`passed_of_temporaryName`): the temporary file has a name that is not in use, and where
nothing is yet, the name of the file to be is not in use.

A symbolic link is a file of its own here: where the path ends in one, it is the link that is
replaced, and what it leads to stays. -/

namespace NinjaPlan.FileTree

/-- A replacement with a fault, or without, is done at once or not at all. -/
structure Replacement.Atomic (r : Replacement) (t : FileTree) (here : Location) (path : Path)
    (content : Bytes) (fault : Option Fault) : Prop where
  /-- It succeeds if no step is made to fail, a temporary file can be created and the path names a
  place for a file. -/
  succeeds : r.error = none ↔ fault = none ∧
    (∃ dir, t.openFor here (directoryOf path)
      (temporaryBytes here (directoryOf path) (temporaryName 0)) = .ok dir) ∧
    ∃ place, t.renameTarget here path.bytes = .ok place
  /-- If it fails, there is what was before. -/
  undone : r.error ≠ none → r.final = t
  /-- If it succeeds, the path names the new file and everything else is as before. -/
  done : r.error = none → ∃ place, t.Names here path.bytes place ∧ ∀ other, r.final.get? other =
    if other = place then some (.file content readablePermissions) else t.get? other
  /-- It makes moves, and what it records is passed on the way. -/
  visits : Visits here path content ⟨.begun, t⟩ r.passed ⟨r.phase, r.final⟩

/-- Whatever the temporary file is called and wherever a replacement stops, it is done at once or
not at all. -/
structure Moves.Atomic (t : FileTree) (here : Location) (path : Path) (content : Bytes) :
    Prop where
  /-- Where it has been abandoned, there is what was before. -/
  undone : ∀ u, Moves here path content ⟨.begun, t⟩ ⟨.abandoned, u⟩ → u = t
  /-- Where it is over, the path names the new file and everything else is as before. -/
  done : ∀ u, Moves here path content ⟨.begun, t⟩ ⟨.replaced, u⟩ →
    ∃ place, t.Names here path.bytes place ∧ ∀ other, u.get? other =
      if other = place then some (.file content readablePermissions) else t.get? other
  /-- On the way there is a temporary file, and everything else but the path's file is as before. -/
  apart : ∀ s, Moves here path content ⟨.begun, t⟩ s → Apart t here path s
  /-- Where the temporary file has another place than the path's file, that one is as before too,
  until it is the new file. -/
  intact : ∀ s, Moves here path content ⟨.begun, t⟩ s →
    (∀ place, s.phase.temporary? = some place → ¬ t.Names here path.bytes place) →
      Intact t here path content s

theorem Moves.atomic (t : FileTree) (here : Location) (path : Path) (content : Bytes) :
    Moves.Atomic t here path content where
  undone := by
    intro u hmoves
    cases stage_of_moves hmoves
    rfl
  done := by
    intro u hmoves
    cases stage_of_moves hmoves with
    | @replaced name dir hnul hparent =>
        exact ⟨name :: dir, ⟨name, dir, false, hparent, rfl⟩, get?_put t (List.cons_ne_nil name dir) _⟩
  apart := fun _ hmoves => (stage_of_moves hmoves).apart
  intact := fun _ hmoves => (stage_of_moves hmoves).intact

/-- **Replacing is atomic.**  Whatever the files are, and whatever step is made to fail, a
replacement leaves all files as they were or it has put the new file in place of the old one.  On
the way nobody finds anything else at the path than the old file or the new one, where the
temporary file has another name than the file to be.  It has, unless nothing is at the path and the
name there is of that kind. -/
theorem replace_atomic (t : FileTree) (here : Location) (path : Path) (content : Bytes)
    (fault : Option Fault) :
    (t.replace here path content fault).Atomic t here path content fault ∧
    Moves.Atomic t here path content ∧
    (¬ t.NamesTemporary here path.bytes →
      (∀ u ∈ (t.replace here path content fault).passed,
        ∃ phase, phase ≠ .replaced ∧ Intact t here path content ⟨phase, u⟩) ∧
      ∀ s, Moves here path content ⟨.begun, t⟩ s → Intact t here path content s) := by
  have hvisits := visits_replace t here path content fault
  refine ⟨⟨replace_done_iff, ?undone, ?done, hvisits⟩, Moves.atomic t here path content,
    fun hplain => ⟨?passed, fun s hmoves => ?reached⟩⟩
  case undone =>
    intro hfailed
    rcases replace_cases t here path content fault with ⟨e, -, hfinal⟩ | ⟨name, dir, hdone, -⟩
    · exact hfinal
    · exact absurd hdone hfailed
  case done =>
    intro hdone
    rcases replace_cases t here path content fault with
      ⟨e, herror, -⟩ | ⟨name, dir, -, hfinal, -, hparent⟩
    · rw [hdone] at herror
      cases herror
    · refine ⟨name :: dir, ⟨name, dir, false, hparent, rfl⟩, fun other => ?_⟩
      rw [hfinal, get?_put t (List.cons_ne_nil name dir)]
  case passed =>
    intro u hu
    obtain ⟨phase, hphase, hmoves⟩ := hvisits.exists_moves hu
    have hstage := stage_of_moves hmoves
    exact ⟨phase, hphase, hstage.intact (hstage.not_names hplain)⟩
  case reached =>
    have hstage := stage_of_moves hmoves
    exact hstage.intact (hstage.not_names hplain)

/-- A directory with a file and a link to it. -/
def linkedFile : FileTree :=
  ⟨[([Utf8.encode "d"], .directory),
    ([Utf8.encode "old", Utf8.encode "d"], .file (Utf8.encode "kept") readablePermissions),
    ([Utf8.encode "link", Utf8.encode "d"], .link (Utf8.encode "old"))]⟩

/-- The link is there until the new file is, whatever the temporary file is called.  A rename that
fails leaves all as it was. -/
theorem replace_atomic_linkedFile :
    (∀ s, Moves [] "/d/link" (Utf8.encode "new") ⟨.begun, linkedFile⟩ s →
      Intact linkedFile [] "/d/link" (Utf8.encode "new") s) ∧
    (linkedFile.replace [] "/d/link" (Utf8.encode "new")
      (some ⟨.rename, .os .busy, 0⟩)).final = linkedFile := by
  have hparent : linkedFile.locateParent [] (Path.bytes "/d/link") =
      .ok ([Utf8.encode "d"], .name (Utf8.encode "link") false) := by rfl
  have hlink : linkedFile.get? [Utf8.encode "link", Utf8.encode "d"] ≠ none := by decide +kernel
  have hplain : ¬ linkedFile.NamesTemporary [] (Path.bytes "/d/link") := by
    rintro ⟨name, dir, hnames, hfree, -⟩
    rw [hnames.unique ⟨_, _, _, hparent, rfl⟩] at hfree
    exact hlink hfree
  obtain ⟨hrun, -, hway⟩ := replace_atomic linkedFile [] "/d/link" (Utf8.encode "new")
    (some ⟨.rename, .os .busy, 0⟩)
  exact ⟨(hway hplain).2, hrun.undone fun hdone => nomatch (hrun.succeeds.mp hdone).1⟩

-- The link becomes a file, and what it led to is as before.
example : let u := (linkedFile.replace [] "/d/link" (Utf8.encode "new")).final
    u.readFile [] (Utf8.encode "/d/link") = .ok (Utf8.encode "new") ∧
      u.readFile [] (Utf8.encode "/d/old") = .ok (Utf8.encode "kept") := by decide +kernel

-- A rename that fails leaves the link.
example :
    let r := linkedFile.replace [] "/d/link" (Utf8.encode "new") (some ⟨.rename, .os .busy, 0⟩)
    r.error = some (.rename "/d/link" (.os .busy)) ∧ r.final.entries = linkedFile.entries := by
  decide +kernel

/-- A path with a name that the temporary file may have names an empty file on the way. -/
theorem passed_of_temporaryName :
    ∃ u ∈ (replace ⟨[([Utf8.encode "d"], .directory)]⟩ [] "/d/.ninjaconf.000000.tmp"
        (Utf8.encode "new")).passed,
      u.readFile [] (Utf8.encode "/d/.ninjaconf.000000.tmp") = .ok [] := by decide +kernel

end NinjaPlan.FileTree
