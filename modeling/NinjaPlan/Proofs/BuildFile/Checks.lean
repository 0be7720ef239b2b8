import NinjaPlan.Proofs.BuildFile.Paths
import NinjaPlan.Proofs.Plan.Paths

/-! # What is checked for line breaks

Every text that is written into a line must not break it.  A computation `Checks` such texts if it
fails exactly if one of them does, with the error of the first one.  Checking is kept when
computations are put behind each other (`Checks.bind`), so it is enough to know what the parts of a
build file check: writing the file checks the two commands and then the paths of the plan, in the
order of `Plan.paths` (`checks_render`). -/

namespace NinjaPlan.BuildFile

/-- A text that has to fit on a line, and the error if it does not. -/
structure Inline where
  text : Text
  error : RenderError

/-- The command of a rule has to fit on a line. -/
def Inline.ofCommand (rule command : Text) : Inline := ⟨command, .newlineInCommand rule⟩

/-- A path has to fit on a line. -/
def Inline.ofPath (p : Path) : Inline := ⟨p.text, .newlineInPath p.text⟩

/-- The error of the first text that holds a line break. -/
def firstBreak (texts : List Inline) : Option RenderError :=
  (texts.find? fun t => Text.hasLineBreak t.text).map Inline.error

theorem firstBreak_append (texts more : List Inline) :
    firstBreak (texts ++ more) = (firstBreak texts).or (firstBreak more) := by
  rw [firstBreak, List.find?_append, Option.map_or]
  rfl

theorem firstBreak_cons (t : Inline) (texts : List Inline) : firstBreak (t :: texts) =
    if Text.hasLineBreak t.text then some t.error else firstBreak texts := by
  unfold firstBreak
  rw [List.find?_cons]
  cases Text.hasLineBreak t.text <;> rfl

theorem firstBreak_eq_none_iff {texts : List Inline} :
    firstBreak texts = none ↔ ∀ t ∈ texts, Text.hasLineBreak t.text = false := by
  simp [firstBreak]

theorem firstBreak_map_ofPath (ps : List Path) : firstBreak (ps.map Inline.ofPath) =
    (ps.find? fun p => Text.hasLineBreak p.text).map fun p => .newlineInPath p.text := by
  rw [firstBreak, List.find?_map, Option.map_map]
  rfl

/-! ### Checking -/

/-- The computation fails exactly with the error of the first text that holds a line break. -/
def Checks {α : Type} (x : Except RenderError α) (texts : List Inline) : Prop :=
  ∀ e, x = .error e ↔ firstBreak texts = some e

section checks

variable {α β : Type} {x : Except RenderError α} {texts more : List Inline}

theorem checks_ok (a : α) : Checks (.ok a) [] := by
  intro e
  simp [firstBreak]

theorem Checks.firstBreak_of_ok (h : Checks x texts) {a : α} (hx : x = .ok a) :
    firstBreak texts = none := by
  cases hbreak : firstBreak texts with
  | none => rfl
  | some e => exact nomatch hx.symm.trans ((h e).mpr hbreak)

/-- A computation that checks texts succeeds exactly if none of them holds a line break. -/
theorem Checks.exists_ok_iff (h : Checks x texts) :
    (∃ a, x = .ok a) ↔ ∀ t ∈ texts, Text.hasLineBreak t.text = false := by
  rw [← firstBreak_eq_none_iff]
  constructor
  · rintro ⟨a, hx⟩
    exact h.firstBreak_of_ok hx
  · intro hnone
    cases hx : x with
    | ok a => exact ⟨a, rfl⟩
    | error e => exact nomatch hnone.symm.trans ((h e).mp hx)

/-- Whatever is done next checks its own texts after those before it. -/
theorem Checks.bind (h : Checks x texts) {f : α → Except RenderError β}
    (hf : ∀ a, Checks (f a) more) : Checks (x >>= f) (texts ++ more) := by
  intro e
  rw [firstBreak_append]
  cases hx : x with
  | error e' =>
      have hskip : (Except.error e' : Except RenderError α) >>= f = .error e' := rfl
      rw [(h e').mp hx, Option.some_or, hskip, Except.error.injEq, Option.some.injEq]
  | ok a =>
      rw [h.firstBreak_of_ok hx, Option.none_or]
      exact hf a e

/-- A result that is only put together from another is checked with it. -/
theorem Checks.map (h : Checks x texts) (g : α → β) :
    Checks (x >>= fun a => .ok (g a)) texts := by
  have hbind := h.bind fun a => checks_ok (g a)
  rwa [List.append_nil] at hbind

end checks

/-! ### Writing -/

theorem checks_ensureSingleLine (rule command : Text) :
    Checks (ensureSingleLine rule command) [.ofCommand rule command] := by
  intro e
  unfold ensureSingleLine
  rw [firstBreak_cons]
  cases hb : Text.hasLineBreak command <;> simp [Inline.ofCommand, hb, firstBreak]

theorem checks_escapePath (p : Path) : Checks (escapePath p) [.ofPath p] := by
  intro e
  unfold escapePath
  rw [firstBreak_cons]
  cases hb : Text.hasLineBreak p.text <;> simp [Inline.ofPath, hb, firstBreak]

theorem checks_escapePaths (ps : List Path) :
    Checks (escapePaths ps) (ps.map Inline.ofPath) := by
  induction ps with
  | nil => exact checks_ok []
  | cons p ps ih => exact (checks_escapePath p).bind fun word => ih.map (word :: ·)

theorem checks_compileLine (e : CompileEdge) :
    Checks (compileLine e) ([e.object, e.source].map Inline.ofPath) :=
  (checks_escapePath e.object).bind fun _ => (checks_escapePath e.source).map _

theorem checks_linkLine (e : LinkEdge) :
    Checks (linkLine e) ((e.output :: e.inputs).map Inline.ofPath) :=
  (checks_escapePath e.output).bind fun _ => (checks_escapePaths e.inputs).map _

theorem checks_edgeLines {α : Type} {line : α → Except RenderError Text} {paths : α → List Path}
    (h : ∀ e, Checks (line e) ((paths e).map Inline.ofPath)) (edges : List α) :
    Checks (edgeLines line edges) ((edges.flatMap paths).map Inline.ofPath) := by
  induction edges with
  | nil => exact checks_ok []
  | cons e edges ih =>
      rw [List.flatMap_cons, List.map_append]
      exact (h e).bind fun _ => ih.map _

/-- Writing a build file checks the commands of the rules and then the paths of the plan. -/
theorem checks_render (p : Plan) (c : FlagConfig) :
    Checks (render p c) (.ofCommand compileRule (compileCommand c) ::
      .ofCommand linkRule (linkCommand c) :: p.paths.map Inline.ofPath) := by
  have hpaths : p.paths.map Inline.ofPath =
      (p.compileEdges.flatMap fun e => [e.object, e.source]).map Inline.ofPath ++
        ((p.linkEdges.flatMap fun l => l.output :: l.inputs).map Inline.ofPath ++
          [.ofPath p.defaultTarget]) := by
    rw [Plan.paths, List.map_append, List.map_append, List.append_assoc]
    rfl
  rw [hpaths]
  refine (checks_ensureSingleLine compileRule _).bind fun _ => ?_
  refine (checks_ensureSingleLine linkRule _).bind fun _ => ?_
  refine (checks_edgeLines checks_compileLine p.compileEdges).bind fun _ => ?_
  refine (checks_edgeLines checks_linkLine p.linkEdges).bind fun _ => ?_
  exact (checks_escapePath p.defaultTarget).map _

theorem hasLineBreak_of_render {p : Plan} {c : FlagConfig} {text : Text}
    (h : render p c = .ok text) : ∀ q ∈ p.paths, Text.hasLineBreak q.text = false := by
  intro q hq
  have hall := (checks_render p c).exists_ok_iff.mp ⟨text, h⟩
  exact hall (.ofPath q)
    (List.mem_cons_of_mem _ (List.mem_cons_of_mem _ (List.mem_map_of_mem hq)))

end NinjaPlan.BuildFile
