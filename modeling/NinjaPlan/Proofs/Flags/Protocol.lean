import NinjaPlan.Proofs.Flags.Lookups
import NinjaPlan.Proofs.Shell.Word

/-! # Which lookups are made

Resolving asks every package for its compiler flags and then every package for its linker flags
(`FlagRequest.lookupOrder`), each lookup on the files that the one before it has left.  Lookups that
are answered in turn are `Served`; otherwise there is one behind which no further lookup is made
(`FailsBehind`), and never both (`PackageSource.Served.not_fails`).

What is quoted for the shell comes first: with a NUL in it no package is asked.  Otherwise all
lookups are made, or those up to the first failure, which is the one that is reported
(`FlagRequest.resolve_lookups`). -/

namespace NinjaPlan
namespace PackageSource

variable {source : PackageSource}

/-- The lookups are answered in turn; the first tree is the one before them, the last the one that
they leave. -/
inductive Served (source : PackageSource) : FileTree → List Lookup → FileTree → Prop where
  | nil {t : FileTree} : Served source t [] t
  | cons {t u v : FileTree} {l : Lookup} {lookups : List Lookup} {flags : Text} :
      source t l.1 l.2 = (.ok flags, u) → Served source u lookups v →
      Served source t (l :: lookups) v

/-- The lookups begin with some that are answered and then one that fails, with the error and the
files that it leaves. -/
structure FailsBehind (source : PackageSource) (t : FileTree) (lookups before : List Lookup)
    (l : Lookup) (e : LookupError) (v : FileTree) : Prop where
  begins : before ++ [l] <+: lookups
  fails : ∃ u, source.Served t before u ∧ source u l.1 l.2 = (.error e, v)

/-! ### Runs of lookups -/

theorem Served.append {t u v : FileTree} {first rest : List Lookup}
    (h : source.Served t first u) (h' : source.Served u rest v) :
    source.Served t (first ++ rest) v := by
  induction h with
  | nil => exact h'
  | cons hanswer _ ih => exact .cons hanswer (ih h')

theorem Served.unique {t u v : FileTree} {lookups : List Lookup}
    (h : source.Served t lookups u) (h' : source.Served t lookups v) : u = v := by
  induction h with
  | nil =>
      cases h'
      rfl
  | cons hanswer _ ih =>
      cases h' with
      | cons hanswer' hrest' =>
          obtain ⟨-, rfl⟩ := Prod.mk.inj (hanswer.symm.trans hanswer')
          exact ih hrest'

theorem Served.not_fails {t u v : FileTree} {lookups before : List Lookup} {l : Lookup}
    {e : LookupError} (h : source.Served t lookups u) :
    ¬ source.FailsBehind t lookups before l e v := by
  rintro ⟨⟨after, rfl⟩, w, hbefore, hfails⟩
  induction hbefore with
  | nil =>
      cases h with
      | cons hanswer _ => simp [hanswer] at hfails
  | cons hanswer _ ih =>
      cases h with
      | cons hanswer' hrest =>
          obtain ⟨-, rfl⟩ := Prod.mk.inj (hanswer.symm.trans hanswer')
          exact ih hrest hfails

theorem FailsBehind.append_right {t v : FileTree} {lookups before : List Lookup} {l : Lookup}
    {e : LookupError} (h : source.FailsBehind t lookups before l e v) (more : List Lookup) :
    source.FailsBehind t (lookups ++ more) before l e v :=
  ⟨h.begins.trans (List.prefix_append lookups more), h.fails⟩

theorem FailsBehind.append_left {t u v : FileTree} {first lookups before : List Lookup}
    {l : Lookup} {e : LookupError} (hfirst : source.Served t first u)
    (h : source.FailsBehind u lookups before l e v) :
    source.FailsBehind t (first ++ lookups) (first ++ before) l e v := by
  obtain ⟨hbegins, w, hbefore, hfails⟩ := h
  refine ⟨?_, w, hfirst.append hbefore, hfails⟩
  rw [List.append_assoc]
  exact (List.prefix_append_right_inj first).mpr hbegins

theorem served_answers_iff {answers : PackageAnswers} {t u : FileTree} {lookups : List Lookup} :
    answers.source.Served t lookups u ↔
      u = t ∧ ∀ l ∈ lookups, ∃ flags, answers l.1 l.2 = .ok flags := by
  constructor
  · intro h
    induction h with
    | nil => simp
    | cons hanswer _ ih =>
        obtain ⟨hflags, rfl⟩ := Prod.mk.inj hanswer
        exact ⟨ih.1, List.forall_mem_cons.mpr ⟨⟨_, hflags⟩, ih.2⟩⟩
  · rintro ⟨rfl, h⟩
    induction lookups with
    | nil => exact .nil
    | cons l lookups ih =>
        obtain ⟨⟨flags, hflags⟩, hrest⟩ := List.forall_mem_cons.mp h
        exact .cons (Prod.ext hflags rfl) (ih hrest)

end PackageSource

/-! ### One kind of flags -/

theorem askAll_outcome (source : PackageSource) (kind : FlagKind) (t : FileTree)
    (packages : List Text) :
    (∃ answers u, source.Served t (packages.map (·, kind)) u ∧
      askAll source kind t packages = ⟨packages.map (·, kind), .ok answers, u⟩) ∨
    ∃ before l e v, source.FailsBehind t (packages.map (·, kind)) before l e v ∧
      askAll source kind t packages = ⟨before ++ [l], .error (.lookup l.1 l.2 e), v⟩ := by
  induction packages generalizing t with
  | nil => exact Or.inl ⟨[], t, .nil, rfl⟩
  | cons package packages ih =>
      unfold askAll
      rcases hanswer : source t package kind with ⟨e | flags, u⟩
      · refine Or.inr ⟨[], (package, kind), e, u, ⟨?_, t, .nil, hanswer⟩, rfl⟩
        exact ⟨packages.map (·, kind), rfl⟩
      · have hfirst : source.Served t [(package, kind)] u := .cons hanswer .nil
        rcases ih u with ⟨answers, v, hserved, hrest⟩ | ⟨before, l, e, v, hfails, hrest⟩
        · exact Or.inl ⟨flags :: answers, v, hfirst.append hserved, by simp [hrest, Except.map]⟩
        · exact Or.inr ⟨(package, kind) :: before, l, e, v, .append_left hfirst hfails,
            by simp [hrest, Except.map]⟩

/-! ### Both kinds -/

namespace FlagRequest

/-- The text that is quoted for the shell. -/
def quotedText (r : FlagRequest) : Text :=
  match r.compileOverride with
  | none => r.includePath
  | some _ => r.root.text

/-- The lookups of a request: the compiler flags of each package, then the linker flags. -/
def lookupOrder (r : FlagRequest) : List Lookup :=
  r.packages.map (·, .cflags) ++ r.packages.map (·, .libs)

variable {r : FlagRequest}

theorem exists_baseFlags_eq_map (r : FlagRequest) :
    ∃ f : Text → Text, r.baseFlags = (r.quotePath r.quotedText).map f := by
  unfold baseFlags quotedText
  cases r.compileOverride with
  | none =>
      refine ⟨fun dir => appendSegment (Text.replaceAll includePlaceholder dir commonFlags)
        r.mode.flags, ?_⟩
      cases r.quotePath r.includePath <;> rfl
  | some flags =>
      refine ⟨fun root => Text.replaceAll rootPlaceholder root flags, ?_⟩
      cases r.quotePath r.root.text <;> rfl

theorem baseFlags_of_nul (h : '\x00' ∈ r.quotedText) :
    r.baseFlags = .error (.unquotableRoot r.root) := by
  obtain ⟨f, hf⟩ := r.exists_baseFlags_eq_map
  rw [hf, quotePath, Shell.quoteWord?_eq_none_iff.mpr h]
  rfl

theorem exists_baseFlags (h : '\x00' ∉ r.quotedText) : ∃ base, r.baseFlags = .ok base := by
  obtain ⟨f, hf⟩ := r.exists_baseFlags_eq_map
  obtain ⟨word, hword⟩ : ∃ word, Shell.quoteWord? r.quotedText = some word :=
    Option.ne_none_iff_exists'.mp (mt Shell.quoteWord?_eq_none_iff.mp h)
  rw [hf, quotePath, hword]
  exact ⟨_, rfl⟩

/-- All lookups are made and answered, or those up to the first that fails are made. -/
theorem resolve_outcome (h : '\x00' ∉ r.quotedText) (source : PackageSource) (t : FileTree) :
    (∃ c u, source.Served t r.lookupOrder u ∧ r.resolve source t = ⟨r.lookupOrder, .ok c, u⟩) ∨
    ∃ before l e v, source.FailsBehind t r.lookupOrder before l e v ∧
      r.resolve source t = ⟨before ++ [l], .error (.lookup l.1 l.2 e), v⟩ := by
  obtain ⟨base, hbase⟩ := exists_baseFlags h
  unfold resolve
  simp only [hbase]
  rcases askAll_outcome source .cflags t r.packages with
    ⟨cflags, u, hserved, hask⟩ | ⟨before, l, e, v, hfails, hask⟩
  · simp only [hask]
    rcases askAll_outcome source .libs u r.packages with
      ⟨libs, v, hserved', hask'⟩ | ⟨before, l, e, v, hfails, hask'⟩
    · exact Or.inl ⟨r.configure base cflags libs, v, hserved.append hserved', by rw [hask']; rfl⟩
    · exact Or.inr ⟨_, l, e, v, .append_left hserved hfails, by simp [hask', Except.map]⟩
  · exact Or.inr ⟨before, l, e, v, hfails.append_right _, by simp only [hask]⟩

/-- **The lookups of a request.**  With a NUL in what is quoted, the root is reported and no lookup
is made.  Otherwise, if all lookups are answered, they are made in their order and there are flags;
and if not, those are made that end with the first one that fails, and its package, kind and failure
are reported. -/
theorem resolve_lookups (r : FlagRequest) (source : PackageSource) (t : FileTree) :
    ('\x00' ∈ r.quotedText → r.resolve source t = ⟨[], .error (.unquotableRoot r.root), t⟩) ∧
    ('\x00' ∉ r.quotedText →
      (∀ u, source.Served t r.lookupOrder u →
        ∃ c, r.resolve source t = ⟨r.lookupOrder, .ok c, u⟩) ∧
      ((¬ ∃ u, source.Served t r.lookupOrder u) → ∃ before package kind e v,
        source.FailsBehind t r.lookupOrder before (package, kind) e v ∧
        r.resolve source t =
          ⟨before ++ [(package, kind)], .error (.lookup package kind e), v⟩)) := by
  refine ⟨fun hnul => ?_, fun hnul => ⟨fun u hserved => ?_, fun hnot => ?_⟩⟩
  · unfold resolve
    rw [baseFlags_of_nul hnul]
  · rcases resolve_outcome hnul source t with ⟨c, v, hserved', hresolve⟩ | ⟨_, _, _, _, hfails, -⟩
    · exact ⟨c, by rw [hresolve, hserved'.unique hserved]⟩
    · exact absurd hfails hserved.not_fails
  · rcases resolve_outcome hnul source t with
      ⟨-, u, hserved, -⟩ | ⟨before, l, e, v, hfails, hresolve⟩
    · exact absurd ⟨u, hserved⟩ hnot
    · exact ⟨before, l.1, l.2, e, v, hfails, hresolve⟩

/-- A request that names a package twice. -/
def repeatedRequest : FlagRequest where
  compiler := "c++"
  linker := "c++"
  root := "/p"
  includeDir := "src"
  packages := ["fmt", "zlib", "fmt"]

/-- The request with a root that cannot be quoted. -/
def unquotableRequest : FlagRequest := { repeatedRequest with root := "/p\x00" }

/-- Answers to all lookups. -/
def plainAnswers : PackageAnswers := fun package _ => .ok package

/-- Answers that lack the linker flags of one package. -/
def partialAnswers : PackageAnswers := fun package kind =>
  if package = "fmt" ∧ kind = .libs then .error (.notUtf8 "pkg-config") else .ok package

/-- Of the six lookups all are made, or four when the fourth fails, or none. -/
theorem resolve_lookups_repeatedRequest :
    ('\x00' ∈ unquotableRequest.quotedText ∧
      unquotableRequest.resolve plainAnswers.source {} =
        ⟨[], .error (.unquotableRoot unquotableRequest.root), {}⟩) ∧
    '\x00' ∉ repeatedRequest.quotedText ∧
    (plainAnswers.source.Served {} repeatedRequest.lookupOrder {} ∧
      ∃ c, repeatedRequest.resolve plainAnswers.source {} =
        ⟨repeatedRequest.lookupOrder, .ok c, {}⟩) ∧
    (¬ ∃ u, partialAnswers.source.Served {} repeatedRequest.lookupOrder u) ∧
    (∃ before package kind e v,
      partialAnswers.source.FailsBehind {} repeatedRequest.lookupOrder before (package, kind) e v ∧
      repeatedRequest.resolve partialAnswers.source {} =
        ⟨before ++ [(package, kind)], .error (.lookup package kind e), v⟩) ∧
    repeatedRequest.resolve partialAnswers.source {} =
      ⟨[("fmt", .cflags), ("zlib", .cflags), ("fmt", .cflags), ("fmt", .libs)],
        .error (.lookup "fmt" .libs (.notUtf8 "pkg-config")), {}⟩ := by
  have hnul : '\x00' ∈ unquotableRequest.quotedText := by decide
  have hplain : '\x00' ∉ repeatedRequest.quotedText := by decide
  have hserved : plainAnswers.source.Served {} repeatedRequest.lookupOrder {} :=
    PackageSource.served_answers_iff.mpr ⟨rfl, fun l _ => ⟨l.1, rfl⟩⟩
  have hnot : ¬ ∃ u, partialAnswers.source.Served {} repeatedRequest.lookupOrder u := by
    rintro ⟨u, hserved⟩
    obtain ⟨flags, hflags⟩ := (PackageSource.served_answers_iff.mp hserved).2 ("fmt", .libs)
      (by decide)
    cases hflags
  obtain ⟨-, hresolve⟩ := resolve_lookups repeatedRequest partialAnswers.source {}
  exact ⟨⟨hnul, (resolve_lookups unquotableRequest plainAnswers.source {}).1 hnul⟩, hplain,
    ⟨hserved, ((resolve_lookups repeatedRequest plainAnswers.source {}).2 hplain).1 _ hserved⟩,
    hnot, (hresolve hplain).2 hnot, rfl⟩

end FlagRequest
end NinjaPlan
