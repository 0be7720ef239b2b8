import NinjaPlan.Proofs.Files.Moves

/-! # Replacing leaves nothing behind

A replacement makes the moves of `Move`, and the trees that it records are those that it passes on
the way, in order (`visits_replace`).  So what holds after any moves holds of it.

A replacement therefore leaves the tree it began with, or that tree with a new file at the place
that the path names (`replace_cases`).  This holds whatever step fails.  It is done exactly if no
step is made to fail, its directory can be opened and the path names a place for a file
(`replace_done_iff`). -/

namespace NinjaPlan.FileTree

variable {t : FileTree} {here dir place : Location}

section opening

variable {p : Path} {temporary : Bytes}

theorem openDirectory_eq_ok_iff :
    t.openDirectory here p = .ok dir ↔ t.directoryAt here p.bytes = some dir := by
  unfold openDirectory directoryAt
  cases t.find here p.bytes with
  | error e => simp
  | ok loc => grind

theorem openFor_eq_ok_iff : t.openFor here p temporary = .ok dir ↔
    (0 ∉ temporary ∧ temporary.length < pathLimit) ∧
      t.directoryAt here p.bytes = some dir := by
  unfold openFor
  rw [← openDirectory_eq_ok_iff]
  split_ifs with hnul hlong
  · simp [hnul]
  · simp [Nat.not_lt.mpr hlong]
  · simp [hnul, Nat.not_le.mp hlong]

end opening

/-! ### The moves that are made -/

/-- A replacement makes moves, and passes some trees in turn before the new file is there. -/
inductive Visits (here : Location) (path : Path) (content : Bytes) :
    Replacing → List FileTree → Replacing → Prop where
  | arrive {s s' : Replacing} (h : Moves here path content s s') : Visits here path content s [] s'
  | pass {s between s' : Replacing} {rest : List FileTree} (h : Moves here path content s between)
      (hphase : between.phase ≠ .replaced) (hrest : Visits here path content between rest s') :
      Visits here path content s (between.files :: rest) s'

/-- The phase that a replacement ends in. -/
def Replacement.phase (r : Replacement) : Phase := if r.error = none then .replaced else .abandoned

theorem Visits.moves {path : Path} {content : Bytes} {s s' : Replacing} {passed : List FileTree}
    (h : Visits here path content s passed s') : Moves here path content s s' := by
  induction h with
  | arrive h => exact h
  | pass h _ _ ih => exact Relation.ReflTransGen.trans h ih

theorem Visits.exists_moves {path : Path} {content : Bytes} {s s' : Replacing}
    {passed : List FileTree} (h : Visits here path content s passed s') {u : FileTree}
    (hu : u ∈ passed) : ∃ phase, phase ≠ .replaced ∧ Moves here path content s ⟨phase, u⟩ := by
  induction h with
  | arrive h => cases hu
  | @pass s between s' rest h hphase _ ih =>
      rcases List.mem_cons.mp hu with rfl | hu
      · exact ⟨between.phase, hphase, h⟩
      · obtain ⟨phase, hphase, hrest⟩ := ih hu
        exact ⟨phase, hphase, Relation.ReflTransGen.trans h hrest⟩

theorem writtenPart_initial (fault : Option Fault) (content : Bytes) :
    writtenPart fault content <+: content := by
  unfold writtenPart
  split
  · exact List.take_prefix _ _
  · exact List.prefix_rfl

theorem writtenPart_eq_self {fault : Option Fault} (h : fillFault fault = none) (content : Bytes) :
    writtenPart fault content = content := by
  unfold writtenPart
  split
  · simp [fillFault, faultAt] at h
  · rfl

theorem elim_error_eq_ok_iff {fault : Option IoError} {outcome : Except IoError Location}
    {loc : Location} :
    fault.elim outcome .error = .ok loc ↔ fault = none ∧ outcome = .ok loc := by
  cases fault <;> simp

section made

variable {path : Path} {content data : Bytes}

theorem move_written (hplace : place ≠ []) (u : FileTree) (hdata : data <+: content) :
    Move here path content ⟨.writing place, u.put place (.file [] privatePermissions)⟩
      ⟨.writing place, (u.put place (.file [] privatePermissions)).put place
        (.file data privatePermissions)⟩ :=
  .write (get?_put_self hplace _) hdata

theorem moves_readable (hplace : place ≠ []) (u : FileTree) :
    Moves here path content ⟨.writing place, u.put place (.file content privatePermissions)⟩
      ⟨.readable place, (u.put place (.file content privatePermissions)).put place
        (.file content readablePermissions)⟩ := by
  have hdata := get?_put_self (t := u) hplace (.file content privatePermissions)
  exact (Relation.ReflTransGen.single (.flush hdata)).tail (.setPermissions hdata)

theorem moves_renamed (hplace : place ≠ []) (u : FileTree) {target : Location}
    (htarget : (u.put place (.file content readablePermissions)).renameTarget here path.bytes =
      .ok target) :
    Moves here path content ⟨.readable place, u.put place (.file content readablePermissions)⟩
      ⟨.replaced, ((u.put place (.file content readablePermissions)).erase place).put target
        (.file content readablePermissions)⟩ :=
  (Relation.ReflTransGen.single .sync).tail (.rename (get?_put_self hplace _) htarget)

end made

/-- **A replacement makes the moves.**  The trees that it records are passed on the way, whatever
step fails. -/
theorem visits_replace (t : FileTree) (here : Location) (path : Path) (content : Bytes)
    (fault : Option Fault) :
    Visits here path content ⟨.begun, t⟩ (t.replace here path content fault).passed
      ⟨(t.replace here path content fault).phase, (t.replace here path content fault).final⟩ := by
  unfold replace
  dsimp only
  cases hopen : t.openFor here (directoryOf path)
      (temporaryBytes here (directoryOf path) (temporaryName 0)) with
  | error e => exact .arrive (.single .refuse)
  | ok dir =>
      have hfree := get?_freshName t dir
      have hname := isTemporaryName_freshName t dir
      have hdir := (openFor_eq_ok_iff.mp hopen).2
      dsimp only
      generalize t.freshName dir = name at hfree hname ⊢
      have hplace : name :: dir ≠ [] := List.cons_ne_nil name dir
      have hcreated : Moves here path content _ _ := .single (.create hdir hfree hname)
      cases hcreate : faultAt fault .create with
      | some e => exact .arrive (.single .refuse)
      | none =>
          have hwritten : Moves here path content _ _ :=
            .single (move_written hplace t (writtenPart_initial fault content))
          cases hfill : fillFault fault with
          | some e => exact .pass hcreated nofun (.pass hwritten nofun (.arrive (.single (.fail rfl))))
          | none =>
              rw [writtenPart_eq_self hfill] at hwritten ⊢
              have hreadable : Moves here path content _ _ :=
                moves_readable hplace (t.put (name :: dir) (.file [] privatePermissions))
              -- Three trees are passed, however it ends.
              have hpassed : ∀ {s : Replacing}, Moves here path content _ s →
                  Visits here path content ⟨.begun, t⟩ _ s := fun hrest =>
                .pass hcreated nofun (.pass hwritten nofun (.pass hreadable nofun (.arrive hrest)))
              dsimp only
              cases hsync : faultAt fault .sync with
              | some e => exact hpassed (.single (.fail rfl))
              | none =>
                  dsimp only
                  split
                  · exact hpassed (.single (.fail rfl))
                  · next htarget =>
                      exact hpassed (moves_renamed hplace _ (elim_error_eq_ok_iff.mp htarget).2)

theorem stage_replace (t : FileTree) (here : Location) (path : Path) (content : Bytes)
    (fault : Option Fault) : Stage t here path content
      ⟨(t.replace here path content fault).phase, (t.replace here path content fault).final⟩ :=
  stage_of_moves (visits_replace t here path content fault).moves

/-- **A replacement is done or undone.**  It leaves the tree it began with, or that tree with the
new file at the place that the path names. -/
theorem replace_cases (t : FileTree) (here : Location) (path : Path) (content : Bytes)
    (fault : Option Fault) :
    (∃ e, (t.replace here path content fault).error = some e ∧
      (t.replace here path content fault).final = t) ∨
    ∃ (name : Name) (dir : Location), (t.replace here path content fault).error = none ∧
      (t.replace here path content fault).final =
        t.put (name :: dir) (.file content readablePermissions) ∧
      0 ∉ path.bytes ∧ t.locateParent here path.bytes = .ok (dir, .name name false) := by
  have hstage := stage_replace t here path content fault
  unfold Replacement.phase at hstage
  cases herror : (t.replace here path content fault).error with
  | some e =>
      rw [herror, if_neg (Option.some_ne_none e)] at hstage
      generalize (t.replace here path content fault).final = u at hstage ⊢
      cases hstage
      exact Or.inl ⟨e, rfl, rfl⟩
  | none =>
      rw [herror, if_pos rfl] at hstage
      generalize (t.replace here path content fault).final = u at hstage ⊢
      cases hstage with
      | replaced hnul hparent => exact Or.inr ⟨_, _, rfl, rfl, hnul, hparent⟩

/-! ### When a replacement is done -/

section done

variable {name : Name} {path : Path} {content : Bytes} {permissions : Nat}

/-- The target of a rename does not depend on the temporary file. -/
theorem renameTarget_put (hfree : t.get? (name :: dir) = none) {target : Location} {p : Bytes} :
    (t.put (name :: dir) (.file content permissions)).renameTarget here p = .ok target ↔
      t.renameTarget here p = .ok target := by
  have hplace : name :: dir ≠ [] := List.cons_ne_nil name dir
  have hget : (t.put (name :: dir) (.file content permissions)).get? target ≠ some .directory ↔
      t.get? target ≠ some .directory := by
    rw [get?_put t hplace]
    split_ifs with heq
    · simp [heq, hfree]
    · rfl
  have hparent : ∀ found, (t.put (name :: dir) (.file content permissions)).locateParent here p =
      .ok found ↔ t.locateParent here p = .ok found := fun found =>
    ⟨locateParent_put hplace, locateParent_put_of_ok (noDirectory_of_free hfree)⟩
  simp only [renameTarget_eq_ok_iff, hget, hparent]

/-- A fault makes some step fail. -/
theorem fault_eq_none_iff {fault : Option Fault} : fault = none ↔ faultAt fault .create = none ∧
    fillFault fault = none ∧ faultAt fault .sync = none ∧ faultAt fault .rename = none := by
  cases fault with
  | none => decide
  | some fault =>
      obtain ⟨step, cause, written⟩ := fault
      cases step <;> simp [fillFault, faultAt]

/-- A replacement is done if no step is made to fail, its directory can be opened and there is a
target. -/
theorem replace_done_iff {fault : Option Fault} : (t.replace here path content fault).error = none ↔
    fault = none ∧
    (∃ loc, t.openFor here (directoryOf path)
      (temporaryBytes here (directoryOf path) (temporaryName 0)) = .ok loc) ∧
    ∃ target, t.renameTarget here path.bytes = .ok target := by
  rw [fault_eq_none_iff]
  unfold replace
  dsimp only
  cases hopen : t.openFor here (directoryOf path)
      (temporaryBytes here (directoryOf path) (temporaryName 0)) with
  | error e => simp
  | ok dir =>
      have hfree := get?_freshName t dir
      have hrename : ∀ target, (t.put (t.freshName dir :: dir)
          (.file content readablePermissions)).renameTarget here path.bytes = .ok target ↔
            t.renameTarget here path.bytes = .ok target := fun _ => renameTarget_put hfree
      dsimp only
      cases hcreate : faultAt fault .create with
      | some e => simp
      | none =>
          cases hfill : fillFault fault with
          | some e => simp
          | none =>
              cases hsync : faultAt fault .sync with
              | some e => simp
              | none =>
                  dsimp only
                  rw [put_put, put_put]
                  have hend : (faultAt fault .rename = none ∧
                      ∃ target, t.renameTarget here path.bytes = .ok target) ↔
                        ∃ target, (faultAt fault .rename).elim
                          ((t.put (t.freshName dir :: dir)
                            (.file content readablePermissions)).renameTarget here path.bytes)
                          .error = .ok target := by
                    simp only [elim_error_eq_ok_iff, hrename, exists_and_left]
                  simp only [true_and, Except.ok.injEq, exists_eq', hend]
                  split
                  · next herror => simp [herror]
                  · next htarget => simp [htarget]

end done

end NinjaPlan.FileTree
