import NinjaPlan.Proofs.BuildFile.Paths
import NinjaPlan.Proofs.Flags.Literal

/-! # What flags are composed of

Flags are composed of a beginning and of segments, which are the answers of the packages and the
flags for the dependency file.  The beginning is the user's, with the root in all its places, or it
is the common flags with those of the mode (`FlagRequest.BeginsWith`); behind it stand the segments
that are not blank (`composed`).  The flags for linking are composed in the same way, behind the
user's own or behind what compiling has of the packages (`FlagRequest.Composes`).

A text can be cut at the places for the root in one way only, since they do not overlap, so each
request has one beginning: the base flags (`FlagRequest.baseFlags_eq_ok_iff`).

All flags that are resolved are composed like that, and of what the packages answer only what is not
blank has a part in them (`FlagRequest.resolve_composes`). -/

namespace NinjaPlan

open BuildFile (properWords)

/-! ### Filling places -/

namespace Text

variable {pat : Text}

theorem replaceFrom_skip (pat new : Text) (k : Nat) (s : Text) :
    replaceFrom pat new k s = replaceFrom pat new 0 (s.drop k) := by
  induction s generalizing k with
  | nil => cases k <;> rfl
  | cons c s ih =>
      cases k with
      | zero => rfl
      | succ k => exact ih k

/-- Behind an occurrence the replacement goes on. -/
theorem replaceAll_append (hpat : pat ≠ []) (new s : Text) :
    replaceAll pat new (pat ++ s) = new ++ replaceAll pat new s := by
  obtain ⟨c, rest, rfl⟩ := List.exists_cons_of_ne_nil hpat
  have hprefix : (c :: rest).isPrefixOf (c :: (rest ++ s)) = true :=
    List.isPrefixOf_iff_prefix.mpr (List.prefix_append (c :: rest) s)
  unfold replaceAll
  rw [List.cons_append, replaceFrom, if_pos hprefix, replaceFrom_skip, List.length_cons,
    Nat.add_sub_cancel, List.drop_left]

theorem replaceAll_cons {c : Char} {s : Text} (h : ¬ pat <+: c :: s) (new : Text) :
    replaceAll pat new (c :: s) = c :: replaceAll pat new s := by
  have hnot : pat.isPrefixOf (c :: s) = false := by
    rw [Bool.eq_false_iff, ne_eq, List.isPrefixOf_iff_prefix]
    exact h
  rw [replaceAll, replaceFrom, hnot, if_neg Bool.false_ne_true]
  rfl

theorem exists_pieces_replaceAll (hpat : pat ≠ []) (new s : Text) :
    ∃ pieces, pieces ≠ [] ∧ (∀ p ∈ pieces, ¬ pat <:+: p) ∧ s = pat.intercalate pieces ∧
      replaceAll pat new s = new.intercalate pieces := by
  have hblank : ¬ pat <:+: [] := fun h => hpat (List.infix_nil.mp h)
  induction hlen : s.length using Nat.strongRecOn generalizing s with
  | ind n ih =>
      subst hlen
      by_cases hhere : pat <+: s
      · -- The text begins with a place.
        obtain ⟨rest, rfl⟩ := hhere
        have hshort : rest.length < (pat ++ rest).length := by
          have hpos := List.length_pos_iff.mpr hpat
          rw [List.length_append]
          omega
        obtain ⟨pieces, hne, hfree, hrest, hnew⟩ := ih rest.length hshort rest rfl
        refine ⟨[] :: pieces, List.cons_ne_nil _ _, List.forall_mem_cons.mpr ⟨hblank, hfree⟩, ?_, ?_⟩
        · rw [List.intercalate_cons_of_ne_nil hne, List.nil_append, ← hrest]
        · rw [replaceAll_append hpat, List.intercalate_cons_of_ne_nil hne, List.nil_append, hnew]
      · cases s with
        | nil => exact ⟨[[]], by simp, by simpa using hpat, rfl, rfl⟩
        | cons c s =>
            obtain ⟨pieces, hne, hfree, hs, hnew⟩ := ih s.length (Nat.lt_succ_self _) s rfl
            obtain ⟨p, more, rfl⟩ := List.exists_cons_of_ne_nil hne
            have hcons : ∀ sep : Text, sep.intercalate ((c :: p) :: more) =
                c :: sep.intercalate (p :: more) := by
              intro sep
              cases more <;> simp [List.intercalate_cons_cons]
            have hfirst : ¬ pat <:+: c :: p := by
              have hp : p <+: s := by
                rw [hs]
                cases more with
                | nil => simp
                | cons q more =>
                    rw [List.intercalate_cons_cons, List.append_assoc]
                    exact List.prefix_append _ _
              rintro hinfix
              rcases List.infix_cons_iff.mp hinfix with hstart | hlater
              · exact hhere (hstart.trans ((List.prefix_cons_inj c).mpr hp))
              · exact hfree p List.mem_cons_self hlater
            refine ⟨(c :: p) :: more, List.cons_ne_nil _ _, ?_, ?_, ?_⟩
            · exact List.forall_mem_cons.mpr ⟨hfirst, (List.forall_mem_cons.mp hfree).2⟩
            · rw [hcons, ← hs]
            · rw [hcons, ← hnew, replaceAll_cons hhere]

section places

variable {a : Char} {body : Text} (ha : a ∉ body)
include ha

/-- No occurrence begins in front of a place and ends in it. -/
theorem not_prefix_of_piece {c : Char} {p : Text} (hp : ¬ (a :: body) <:+: c :: p) (rest : Text) :
    ¬ (a :: body) <+: c :: p ++ (a :: body ++ rest) := by
  intro hprefix
  rcases List.prefix_or_prefix_of_prefix hprefix (List.prefix_append _ _) with hwithin | ⟨t, ht⟩
  · exact hp hwithin.isInfix
  · -- The rest of the occurrence is in the place, and so begins like it.
    nth_rewrite 1 [← ht] at hprefix
    cases t with
    | nil =>
        rw [List.append_nil] at ht
        exact hp (ht ▸ List.infix_rfl)
    | cons b t =>
        obtain ⟨rfl, -⟩ := List.cons_prefix_cons.mp ((List.prefix_append_right_inj _).mp hprefix)
        refine ha ?_
        rw [← (List.cons.inj ht).2]
        exact List.mem_append_right p List.mem_cons_self

theorem replaceAll_piece (new : Text) {p : Text} (hp : ¬ (a :: body) <:+: p) (rest : Text) :
    replaceAll (a :: body) new (p ++ (a :: body ++ rest)) =
      p ++ replaceAll (a :: body) new (a :: body ++ rest) := by
  induction p with
  | nil => rfl
  | cons c p ih =>
      exact (replaceAll_cons (not_prefix_of_piece ha hp rest) new).trans
        (congrArg (c :: ·) (ih fun h => hp (List.infix_cons h)))

/-- A place that does not overlap itself is replaced wherever the text is cut at it. -/
theorem replaceAll_intercalate (new : Text) {pieces : List Text}
    (hfree : ∀ p ∈ pieces, ¬ (a :: body) <:+: p) :
    replaceAll (a :: body) new ((a :: body).intercalate pieces) = new.intercalate pieces := by
  induction pieces with
  | nil => rfl
  | cons p pieces ih =>
      obtain ⟨hp, hpieces⟩ := List.forall_mem_cons.mp hfree
      cases pieces with
      | nil =>
          rw [List.intercalate_singleton, List.intercalate_singleton, replaceAll_of_not_infix hp]
      | cons q pieces =>
          rw [List.intercalate_cons_cons, List.intercalate_cons_cons, List.append_assoc,
            replaceAll_piece ha new hp, replaceAll_append (List.cons_ne_nil _ _), ih hpieces,
            List.append_assoc]

end places
end Text

/-! ### Appending segments -/

/-- The text, followed by the segments that are not blank; these are trimmed, and whatever is there
is kept apart by single spaces. -/
def composed (flags : Text) (segments : List Text) : Text :=
  [' '].intercalate ((if flags = [] then [] else [flags]) ++ properWords segments)

theorem intercalate_cons_append (first second : Text) (rest : List Text) :
    [' '].intercalate ((first ++ ' ' :: second) :: rest) =
      [' '].intercalate (first :: second :: rest) := by
  cases rest <;> simp [List.intercalate_cons_cons]

theorem composed_appendSegment (flags segment : Text) (segments : List Text) :
    composed (appendSegment flags segment) segments = composed flags (segment :: segments) := by
  have hwords : properWords (segment :: segments) =
      properWords [segment] ++ properWords segments := BuildFile.properWords_append [segment] segments
  unfold composed appendSegment
  rw [hwords, BuildFile.properWords_singleton]
  dsimp only
  by_cases hblank : Text.trim segment = []
  · simp [hblank]
  · by_cases hflags : flags = []
    · simp [hblank, hflags]
    · simp [hblank, hflags, intercalate_cons_append]

theorem appendSegments_eq_composed (flags : Text) (segments : List Text) :
    appendSegments flags segments = composed flags segments := by
  induction segments generalizing flags with
  | nil => by_cases h : flags = [] <;> simp [appendSegments, composed, BuildFile.properWords, h]
  | cons segment segments ih =>
      rw [← composed_appendSegment, ← ih]
      rfl

/-- The answers that are not blank. -/
def spoken (answers : List Text) : List Text := answers.filter fun a => !(Text.trim a).isEmpty

theorem properWords_eq_of_spoken {answers others : List Text} (h : spoken answers = spoken others) :
    properWords answers = properWords others := by
  have hspoken : ∀ xs : List Text, properWords xs = (spoken xs).map Text.trim := by
    intro xs
    rw [BuildFile.properWords, spoken, List.filter_map]
    rfl
  rw [hspoken, hspoken, h]

theorem composed_double {answers others : List Text} (h : spoken answers = spoken others)
    (flags : Text) (last : List Text) :
    composed flags (answers.map (Text.double '$') ++ last) =
      composed flags (others.map (Text.double '$') ++ last) := by
  unfold composed
  rw [BuildFile.properWords_append, BuildFile.properWords_append, BuildFile.properWords_double,
    BuildFile.properWords_double, properWords_eq_of_spoken h]

/-! ### Flags of a request -/

namespace FlagRequest

variable {r : FlagRequest} {source : PackageSource} {t : FileTree} {c : FlagConfig} {base : Text}

/-- What the flags begin with: the user's, cut at the places for the root and with the quoted root
put there, or else the common flags with the quoted include directory, and those of the mode. -/
def BeginsWith (r : FlagRequest) (base : Text) : Prop :=
  match r.compileOverride with
  | some flags => ∃ word, Shell.quoteWord? r.root.text = some word ∧
      ∃ pieces : List Text, (∀ p ∈ pieces, ¬ rootPlaceholder <:+: p) ∧
        flags = rootPlaceholder.intercalate pieces ∧
        base = (Text.double '$' word).intercalate pieces
  | none => ∃ word, Shell.quoteWord? (r.root.text ++ '/' :: r.includeDir) = some word ∧
      base = ("-Wall -Wextra -std=c++17 -I" : Text) ++ Text.double '$' word ++
        (" -fPIC " : Text) ++ r.mode.flags

/-- The flags that are composed with the answers of the packages. -/
def Composes (r : FlagRequest) (cflags libs : List Text) (c : FlagConfig) : Prop :=
  ∃ base, r.BeginsWith base ∧
    c.compileFlags = composed base (cflags.map (Text.double '$') ++ [r.depFlags]) ∧
    c.linkFlags = composed (r.linkOverride.getD (composed base (cflags.map (Text.double '$'))))
      (libs.map (Text.double '$'))

theorem quotePath_eq_ok_iff {path word : Text} : r.quotePath path = .ok word ↔
    ∃ quoted, Shell.quoteWord? path = some quoted ∧ word = Text.double '$' quoted := by
  unfold quotePath
  cases Shell.quoteWord? path <;> simp [eq_comm]

theorem replaceAll_rootPlaceholder_eq_iff {flags new : Text} :
    Text.replaceAll rootPlaceholder new flags = base ↔
      ∃ pieces : List Text, (∀ p ∈ pieces, ¬ rootPlaceholder <:+: p) ∧
        flags = rootPlaceholder.intercalate pieces ∧ base = new.intercalate pieces := by
  constructor
  · rintro rfl
    have hne : rootPlaceholder ≠ [] := List.cons_ne_nil _ _
    obtain ⟨pieces, -, hfree, hflags, hnew⟩ := Text.exists_pieces_replaceAll hne new flags
    exact ⟨pieces, hfree, hflags, hnew⟩
  · rintro ⟨pieces, hfree, rfl, rfl⟩
    have hopen : '\x7b' ∉ ("root\x7d" : Text) := by decide
    exact Text.replaceAll_intercalate hopen new hfree

theorem baseFlags_eq_ok_iff : r.baseFlags = .ok base ↔ r.BeginsWith base := by
  unfold baseFlags BeginsWith
  cases r.compileOverride with
  | some flags =>
      dsimp only
      rw [BuildFile.bind_eq_ok_iff]
      constructor
      · rintro ⟨word, hword, h⟩
        obtain ⟨quoted, hquoted, rfl⟩ := quotePath_eq_ok_iff.mp hword
        exact ⟨quoted, hquoted, replaceAll_rootPlaceholder_eq_iff.mp (Except.ok.inj h)⟩
      · rintro ⟨quoted, hquoted, hpieces⟩
        exact ⟨_, quotePath_eq_ok_iff.mpr ⟨quoted, hquoted, rfl⟩,
          congrArg Except.ok (replaceAll_rootPlaceholder_eq_iff.mpr hpieces)⟩
  | none =>
      have hmode : spaced r.mode.flags = ' ' :: r.mode.flags := by cases r.mode <;> rfl
      have hcommon : ∀ dir, appendSegment (commonFlagsWith dir) r.mode.flags =
          ("-Wall -Wextra -std=c++17 -I" : Text) ++ dir ++ (" -fPIC " : Text) ++ r.mode.flags := by
        intro dir
        rw [appendSegment_eq (commonFlagsWith_ne_nil dir), hmode, commonFlagsWith_eq]
        simp only [List.append_assoc]
        rfl
      dsimp only
      rw [BuildFile.bind_eq_ok_iff]
      constructor
      · rintro ⟨word, hword, h⟩
        obtain ⟨quoted, hquoted, rfl⟩ := quotePath_eq_ok_iff.mp hword
        exact ⟨quoted, hquoted, (Except.ok.inj h).symm.trans (hcommon _)⟩
      · rintro ⟨quoted, hquoted, rfl⟩
        exact ⟨_, quotePath_eq_ok_iff.mpr ⟨quoted, hquoted, rfl⟩, congrArg Except.ok (hcommon _)⟩

/-- The flags of a configuration are composed of the answers, or of any that differ from them in
blank ones only. -/
theorem composes_configure (h : r.BeginsWith base) {cflags libs cflags' libs' : List Text}
    (hcflags : spoken cflags' = spoken cflags) (hlibs : spoken libs' = spoken libs) :
    r.Composes cflags' libs' (r.configure base cflags libs) := by
  have hcompiled : appendSegments base (cflags.map (Text.double '$')) =
      composed base (cflags'.map (Text.double '$')) := by
    have hsame := composed_double hcflags.symm base []
    rwa [List.append_nil, List.append_nil, ← appendSegments_eq_composed] at hsame
  refine ⟨base, h, ?_, ?_⟩
  · rw [composed_double hcflags, ← appendSegments_eq_composed]
    simp [configure, appendSegments]
  · have hlinked := composed_double hlibs.symm
      (r.linkOverride.getD (composed base (cflags'.map (Text.double '$')))) []
    rw [List.append_nil, List.append_nil] at hlinked
    rw [← hlinked, ← appendSegments_eq_composed, ← hcompiled]
    rfl

theorem resolve_of_mode (hover : r.compileOverride ≠ none) (mode : BuildMode) (dir : Text)
    (h : (r.resolve source t).result = .ok c) :
    (({ r with mode := mode, includeDir := dir } : FlagRequest).resolve source t).result =
      .ok { c with mode := mode } := by
  obtain ⟨flags, hflags⟩ := Option.ne_none_iff_exists'.mp hover
  have hbase : ({ r with mode := mode, includeDir := dir } : FlagRequest).baseFlags =
      r.baseFlags := by
    unfold baseFlags
    rw [hflags]
    rfl
  obtain ⟨base, cflags, libs, hbegin, hcflags, hlibs, rfl⟩ := resolve_eq_ok_iff.mp h
  exact resolve_eq_ok_iff.mpr ⟨base, cflags, libs, hbase.trans hbegin, hcflags, hlibs, rfl⟩

/-- **What flags are composed of.**  Flags that are resolved are composed of the beginning that the
request asks for, the answers of the packages in their order and the flags for the dependency file;
those for linking begin with the user's own, or with what compiling has without the dependency file,
and go on with the packages' answers for linking.  Of the answers, blank ones leave no trace.  With
flags for the compiler given, even empty ones, the mode and the include directory leave none. -/
theorem resolve_composes (h : (r.resolve source t).result = .ok c) :
    ∃ (cflags libs : List Text) (u v : FileTree),
      source.Answers .cflags t r.packages cflags u ∧ source.Answers .libs u r.packages libs v ∧
      r.Composes cflags libs c ∧
      (∀ cflags' libs', spoken cflags' = spoken cflags → spoken libs' = spoken libs →
        r.Composes cflags' libs' c) ∧
      (r.compileOverride ≠ none → ∀ mode dir,
        (({ r with mode := mode, includeDir := dir } : FlagRequest).resolve source t).result =
          .ok { c with mode := mode }) := by
  obtain ⟨base, cflags, libs, u, v, hbase, hcflags, hlibs, hc⟩ := resolve_cases h
  have hbegins := baseFlags_eq_ok_iff.mp hbase
  refine ⟨cflags, libs, u, v, hcflags, hlibs, ?_, ?_, fun hover mode dir =>
    resolve_of_mode hover mode dir h⟩
  · rw [hc]
    exact composes_configure hbegins rfl rfl
  · intro cflags' libs' hcflags' hlibs'
    rw [hc]
    exact composes_configure hbegins hcflags' hlibs'

/-- A request with places for the root, and with empty flags for linking. -/
def overridingRequest : FlagRequest where
  compiler := "c++"
  linker := "c++"
  compileOverride := some "-I\x7broot\x7d/a -I\x7broot\x7d"
  linkOverride := some ""
  root := "/p $"
  includeDir := "src"
  packages := ["none", "zlib"]

/-- Flags that are empty are not the default's, and what a package answers may stand first; blank
answers could be left out. -/
theorem resolve_composes_overridingRequest :
    ∃ c, (overridingRequest.resolve oddAnswers.source {}).result = .ok c ∧
      c.compileFlags = "-I'/p $$'/a -I'/p $$' -I$$HOME/zlib -MMD -MF $out.d" ∧
      c.linkFlags = "-Wl,-rpath,$$$$ORIGIN/lib -lz$$" ∧
      overridingRequest.Composes [" -I$HOME/zlib\n"] ["-Wl,-rpath,$$ORIGIN/lib -lz$"] c ∧
      (({ overridingRequest with mode := .release, includeDir := "include" } :
          FlagRequest).resolve oddAnswers.source {}).result = .ok { c with mode := .release } := by
  obtain ⟨c, hc⟩ : ∃ c, (overridingRequest.resolve oddAnswers.source {}).result = .ok c :=
    ⟨_, rfl⟩
  obtain ⟨cflags, libs, u, v, hcflags, hlibs, -, hblank, hmode⟩ := resolve_composes hc
  have hcompile : c.compileFlags = "-I'/p $$'/a -I'/p $$' -I$$HOME/zlib -MMD -MF $out.d" := by
    rw [← Except.ok.inj hc]
    rfl
  have hlink : c.linkFlags = "-Wl,-rpath,$$$$ORIGIN/lib -lz$$" := by
    rw [← Except.ok.inj hc]
    rfl
  have hcflags' : cflags = [(" \t" : Text), " -I$HOME/zlib\n"] :=
    (Except.ok.inj (askAll_of_answers hcflags)).symm
  have hlibs' : libs = [(" \t" : Text), "-Wl,-rpath,$$ORIGIN/lib -lz$"] :=
    (Except.ok.inj (askAll_of_answers hlibs)).symm
  rw [hcflags', hlibs'] at hblank
  exact ⟨c, hc, hcompile, hlink, hblank _ _ rfl rfl, hmode nofun .release "include"⟩

end FlagRequest
end NinjaPlan
