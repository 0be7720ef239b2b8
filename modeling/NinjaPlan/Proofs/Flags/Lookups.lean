import Mathlib.Logic.Relation
import NinjaPlan.Flags.Resolve

/-! # Asking packages

`Answers` says what packages answer when they are asked one after the other, where each lookup
sees the files that the one before it has left.  `askAll` gives these answers and no others
(`answers_of_askAll`, `askAll_of_answers`), and whatever becomes of it, only lookups have touched
the files (`PackageSource.Leads`).

Flags that are resolved are configured from the base flags and the answers
(`FlagRequest.resolve_eq_ok_iff`, `FlagRequest.resolve_cases`). -/

namespace NinjaPlan

namespace PackageSource

variable {source : PackageSource} {kind : FlagKind}

/-- The packages give the answers in turn; the first tree is the one before the lookups, the last
the one after them. -/
inductive Answers (source : PackageSource) (kind : FlagKind) :
    FileTree → List Text → List Text → FileTree → Prop where
  | nil {t : FileTree} : Answers source kind t [] [] t
  | cons {t u v : FileTree} {package flags : Text} {packages answers : List Text} :
      source t package kind = (.ok flags, u) → Answers source kind u packages answers v →
      Answers source kind t (package :: packages) (flags :: answers) v

/-- Lookups alone lead from one tree to the other. -/
def Leads (source : PackageSource) : FileTree → FileTree → Prop :=
  Relation.ReflTransGen fun t u => ∃ package kind, u = (source t package kind).2

/-- Lookups change no files. -/
def KeepsFiles (source : PackageSource) : Prop :=
  ∀ t package kind, (source t package kind).2 = t

theorem leads_refl (source : PackageSource) (t : FileTree) : source.Leads t t :=
  Relation.ReflTransGen.refl

theorem Leads.trans {t u v : FileTree} (h : source.Leads t u) (g : source.Leads u v) :
    source.Leads t v :=
  Relation.ReflTransGen.trans h g

theorem Leads.eq_of_keepsFiles {t u : FileTree} (h : source.Leads t u) (hs : source.KeepsFiles) :
    u = t := by
  induction h with
  | refl => rfl
  | tail _ hstep ih =>
      obtain ⟨package, kind, rfl⟩ := hstep
      rw [hs, ih]

theorem keepsFiles_of_answers (answers : PackageAnswers) : answers.source.KeepsFiles :=
  fun _ _ _ => rfl

end PackageSource

section askAll

variable {source : PackageSource} {kind : FlagKind}

theorem answers_of_askAll {t : FileTree} {packages answers : List Text}
    (h : (askAll source kind t packages).result = .ok answers) :
    source.Answers kind t packages answers (askAll source kind t packages).tree := by
  induction packages generalizing t answers with
  | nil =>
      obtain rfl := Except.ok.inj h
      exact .nil
  | cons package packages ih =>
      unfold askAll at h ⊢
      rcases hanswer : source t package kind with ⟨_ | flags, u⟩
      · simp [hanswer] at h
      · simp only [hanswer] at h ⊢
        cases hrest : (askAll source kind u packages).result with
        | error e => simp [hrest, Except.map] at h
        | ok others =>
            rw [hrest] at h
            obtain rfl := Except.ok.inj h
            exact .cons hanswer (ih hrest)

theorem askAll_of_answers {t u : FileTree} {packages answers : List Text}
    (h : source.Answers kind t packages answers u) :
    (askAll source kind t packages).result = .ok answers := by
  induction h with
  | nil => rfl
  | cons hanswer _ ih => simp [askAll, hanswer, ih, Except.map]

theorem leads_askAll (source : PackageSource) (kind : FlagKind) (t : FileTree)
    (packages : List Text) : source.Leads t (askAll source kind t packages).tree := by
  induction packages generalizing t with
  | nil => exact source.leads_refl t
  | cons package packages ih =>
      have hfirst : source.Leads t (source t package kind).2 :=
        Relation.ReflTransGen.single ⟨package, kind, rfl⟩
      unfold askAll
      rcases hanswer : source t package kind with ⟨_ | flags, u⟩
      · simpa [hanswer] using hfirst
      · rw [hanswer] at hfirst
        exact hfirst.trans (ih u)

theorem askAll_answers (answers : PackageAnswers) (kind : FlagKind) (packages : List Text)
    (t u : FileTree) : (askAll answers.source kind u packages).result =
      (askAll answers.source kind t packages).result := by
  induction packages with
  | nil => rfl
  | cons package packages ih =>
      unfold askAll
      cases hanswer : answers package kind with
      | error e => simp [PackageAnswers.source, hanswer]
      | ok flags =>
          simp only [PackageAnswers.source, hanswer]
          exact congrArg _ ih

end askAll

namespace FlagRequest

variable {r : FlagRequest} {source : PackageSource} {t : FileTree} {c : FlagConfig}

theorem resolve_eq_ok_iff : (r.resolve source t).result = .ok c ↔
    ∃ (base : Text) (cflags libs : List Text), r.baseFlags = .ok base ∧
      (askAll source .cflags t r.packages).result = .ok cflags ∧
      (askAll source .libs (askAll source .cflags t r.packages).tree r.packages).result =
        .ok libs ∧
      c = r.configure base cflags libs := by
  unfold resolve
  cases r.baseFlags with
  | error e => simp
  | ok base =>
      dsimp only
      cases (askAll source .cflags t r.packages).result with
      | error e => simp
      | ok cflags =>
          dsimp only
          cases (askAll source .libs (askAll source .cflags t r.packages).tree
              r.packages).result with
          | error e => simp [Except.map]
          | ok libs => simp [Except.map, eq_comm]

theorem resolve_cases (h : (r.resolve source t).result = .ok c) :
    ∃ (base : Text) (cflags libs : List Text) (u v : FileTree), r.baseFlags = .ok base ∧
      source.Answers .cflags t r.packages cflags u ∧ source.Answers .libs u r.packages libs v ∧
      c = r.configure base cflags libs := by
  obtain ⟨base, cflags, libs, hbase, hcflags, hlibs, hc⟩ := resolve_eq_ok_iff.mp h
  exact ⟨base, cflags, libs, _, _, hbase, answers_of_askAll hcflags, answers_of_askAll hlibs, hc⟩

theorem resolve_answers (r : FlagRequest) (answers : PackageAnswers)
    (t u : FileTree) :
    (r.resolve answers.source u).result = (r.resolve answers.source t).result := by
  unfold resolve
  cases r.baseFlags with
  | error e => rfl
  | ok base =>
      dsimp only
      rw [askAll_answers answers .cflags r.packages t u]
      cases (askAll answers.source .cflags t r.packages).result with
      | error e => rfl
      | ok cflags =>
          dsimp only
          exact congrArg _ (askAll_answers answers .libs r.packages _ _)

theorem leads_resolve (r : FlagRequest) (source : PackageSource) (t : FileTree) :
    source.Leads t (r.resolve source t).tree := by
  have hfirst := leads_askAll source .cflags t r.packages
  unfold resolve
  split
  · exact source.leads_refl t
  · dsimp only
    split
    · exact hfirst
    · exact hfirst.trans (leads_askAll source .libs _ r.packages)

end FlagRequest
end NinjaPlan
