import NinjaPlan.BuildFile.Value
import NinjaPlan.Proofs.Flags.Lookups
import NinjaPlan.Proofs.Flags.Segments
import NinjaPlan.Proofs.Shell.Word

/-! # Flags as the shell gets them

What is taken from the disk or from a package passes through two languages before the compiler sees
it: Ninja replaces variables in the flags, and a shell splits them into words.

The flags of a request without overrides are a text whose dollar signs are doubled
(`baseFlags_of_quoteWord`), so Ninja takes back exactly this text and goes on with whatever
is written behind it (`readValue_resolve`).  The shell then finds the include directory in one word
(`words_baseFlags`). -/

namespace NinjaPlan

open BuildFile (joinWords properWords readValue)

/-! ### The common flags -/

def commonFlagsWith (dir : Text) : Text := Text.replaceAll includePlaceholder dir commonFlags

section common

variable (dir : Text)

theorem commonFlagsWith_eq : commonFlagsWith dir =
    ("-Wall -Wextra -std=c++17 -I" : Text) ++ (dir ++ (" -fPIC" : Text)) := rfl

theorem commonFlagsWith_ne_nil : commonFlagsWith dir ≠ [] := List.cons_ne_nil _ _

theorem double_commonFlagsWith :
    Text.double '$' (commonFlagsWith dir) = commonFlagsWith (Text.double '$' dir) := by
  rw [commonFlagsWith_eq, commonFlagsWith_eq, Text.double_append, Text.double_append]
  rfl

theorem trim_commonFlagsWith : Text.trim (commonFlagsWith dir) = commonFlagsWith dir := by
  have hstart : (commonFlagsWith dir).dropWhile Text.isBlank = commonFlagsWith dir := rfl
  have hreverse : (commonFlagsWith dir).reverse =
      ("CIPf- " : Text) ++ (("-Wall -Wextra -std=c++17 -I" : Text) ++ dir).reverse := by
    rw [commonFlagsWith_eq, ← List.append_assoc, List.reverse_append]
    rfl
  have hend : ∀ rest : Text, (("CIPf- " : Text) ++ rest).dropWhile Text.isBlank =
      ("CIPf- " : Text) ++ rest := fun _ => rfl
  unfold Text.trim Text.trimEnd
  rw [hstart, hreverse, hend, ← hreverse, List.reverse_reverse]

end common

namespace BuildMode

variable (m : BuildMode)

theorem flags_ne_nil : m.flags ≠ [] := by cases m <;> exact List.cons_ne_nil _ _

theorem trim_flags : Text.trim m.flags = m.flags := by cases m <;> rfl

theorem double_flags : Text.double '$' m.flags = m.flags := by cases m <;> rfl

end BuildMode

namespace FlagRequest

variable {r : FlagRequest} {source : PackageSource} {t : FileTree} {c : FlagConfig}

/-! ### The base flags -/

/-- The parts of the compiler's flags, without overrides and before the flags for the dependency
file; `dir` is the include directory as it is quoted for the shell. -/
def compileParts (r : FlagRequest) (dir : Text) (cflags : List Text) : List Text :=
  commonFlagsWith dir :: r.mode.flags :: cflags

theorem properWords_compileParts (r : FlagRequest) (dir : Text) :
    properWords (r.compileParts dir []) = r.compileParts dir [] := by
  unfold compileParts
  rw [BuildFile.properWords_cons_of_trimmed (commonFlagsWith_ne_nil dir) (trim_commonFlagsWith dir),
    BuildFile.properWords_cons_of_trimmed r.mode.flags_ne_nil r.mode.trim_flags]
  rfl

theorem double_compileParts (r : FlagRequest) (dir : Text) (cflags : List Text) :
    (r.compileParts dir cflags).map (Text.double '$') =
      r.compileParts (Text.double '$' dir) (cflags.map (Text.double '$')) := by
  simp [compileParts, double_commonFlagsWith, r.mode.double_flags]

theorem baseFlags_of_quoteWord (hover : r.compileOverride = none) {dir : Text}
    (h : Shell.quoteWord? r.includePath = some dir) :
    r.baseFlags = .ok (Text.double '$' (joinWords (r.compileParts dir []))) := by
  have hquote : r.quotePath r.includePath = .ok (Text.double '$' dir) := by
    unfold quotePath
    rw [h]
  have hcommon : joinWords [commonFlagsWith (Text.double '$' dir)] =
      commonFlagsWith (Text.double '$' dir) := by
    rw [BuildFile.joinWords_eq, BuildFile.properWords_cons_of_trimmed (commonFlagsWith_ne_nil _)
      (trim_commonFlagsWith _)]
    exact List.intercalate_singleton
  have hjoin := BuildFile.appendSegment_joinWords [commonFlagsWith (Text.double '$' dir)] r.mode.flags
  rw [hcommon] at hjoin
  unfold baseFlags
  rw [hover, BuildFile.double_joinWords, double_compileParts]
  simp only [hquote]
  exact congrArg Except.ok hjoin

theorem quoteWord_of_baseFlags (hover : r.compileOverride = none) {base : Text}
    (h : r.baseFlags = .ok base) : ∃ dir, Shell.quoteWord? r.includePath = some dir ∧
      base = Text.double '$' (joinWords (r.compileParts dir [])) := by
  cases hquote : Shell.quoteWord? r.includePath with
  | none => simp [baseFlags, hover, quotePath, hquote, bind, Except.bind] at h
  | some dir =>
      rw [baseFlags_of_quoteWord hover hquote] at h
      exact ⟨dir, rfl, (Except.ok.inj h).symm⟩

/-! ### Words -/

def baseWords (r : FlagRequest) (dir : Text) : List Text :=
  [("-Wall" : Text), "-Wextra", "-std=c++17", ("-I" : Text) ++ dir, "-fPIC"] ++
    Text.pieces ' ' r.mode.flags

theorem joinWords_compileParts (r : FlagRequest) (dir : Text) :
    joinWords (r.compileParts dir []) = [' '].intercalate (r.baseWords dir) := by
  have hparts : [' '].intercalate (r.compileParts dir []) =
      ("-Wall -Wextra -std=c++17 -I" : Text) ++ (dir ++ ((" -fPIC " : Text) ++ r.mode.flags)) := by
    unfold compileParts
    rw [List.intercalate_cons_cons, List.intercalate_singleton, commonFlagsWith_eq]
    simp only [List.append_assoc]
    rfl
  rw [BuildFile.joinWords_eq, properWords_compileParts, hparts]
  unfold baseWords
  cases r.mode <;> rfl

theorem adds_baseWords (r : FlagRequest) {dir word : Text} (h : Shell.Adds word dir) :
    List.Forall₂ Shell.Adds (r.baseWords word) (r.baseWords dir) := by
  have hplain : ∀ {w : Text}, w ≠ [] ∧ w.all (fun c => decide (Shell.Plain c)) = true →
      Shell.Adds w w := by
    rintro w ⟨hne, hall⟩
    exact Shell.adds_of_plain hne fun c hc => of_decide_eq_true (List.all_eq_true.mp hall c hc)
  have hmode : ∀ w ∈ Text.pieces ' ' r.mode.flags,
      w ≠ [] ∧ w.all (fun c => decide (Shell.Plain c)) = true := by
    cases r.mode <;> decide
  have hdir : Shell.Adds (("-I" : Text) ++ word) (("-I" : Text) ++ dir) :=
    (hplain (by decide)).append h
  have hmodes := List.forall₂_same.mpr fun w hw => hplain (hmode w hw)
  exact .cons (hplain (by decide)) (.cons (hplain (by decide)) (.cons (hplain (by decide))
    (.cons hdir (.cons (hplain (by decide)) hmodes))))

theorem exists_command (r : FlagRequest) {dir word : Text} (h : Shell.quoteWord? word = some dir) :
    ∃ command : Text,
      readValue (Text.double '$' (joinWords (r.compileParts dir []))) = command.map .char ∧
      Shell.words? command = some (r.baseWords word) := by
  refine ⟨joinWords (r.compileParts dir []), ?_, ?_⟩
  · have hvalue := BuildFile.readValue_double (joinWords (r.compileParts dir [])) []
    rwa [List.append_nil, BuildFile.readValue_nil, List.append_nil] at hvalue
  · rw [joinWords_compileParts]
    exact Shell.words?_intercalate (adds_baseWords r (Shell.adds_quoteWord h))

/-- **The include directory is one word.**  Without an override, and if nothing in the root or the
include directory is a NUL, there are base flags; Ninja takes them as a command of which a shell
makes the common words, the include directory as it is, and the words of the mode.  These are the
flags to which the packages' and those for the dependency file are appended. -/
theorem words_baseFlags (hover : r.compileOverride = none) (hroot : '\x00' ∉ r.root.text)
    (hdir : '\x00' ∉ r.includeDir) :
    ∃ flags command : Text, r.baseFlags = .ok flags ∧ readValue flags = command.map .char ∧
      Shell.words? command = some ([("-Wall" : Text), "-Wextra", "-std=c++17",
        ("-I" : Text) ++ (r.root.text ++ '/' :: r.includeDir), "-fPIC"] ++
          Text.pieces ' ' r.mode.flags) ∧
      ∀ source t c, (r.resolve source t).result = .ok c → ∃ cflags u,
        source.Answers .cflags t r.packages cflags u ∧ c.compileFlags =
          appendSegments flags (cflags.map (Text.double '$') ++ [r.depFlags]) := by
  have hnul : '\x00' ∉ r.includePath := by simp [includePath, hroot, hdir]
  obtain ⟨word, hword⟩ : ∃ word, Shell.quoteWord? r.includePath = some word :=
    Option.ne_none_iff_exists'.mp (mt Shell.quoteWord?_eq_none_iff.mp hnul)
  have hbase := baseFlags_of_quoteWord hover hword
  obtain ⟨command, hvalue, hwords⟩ := r.exists_command hword
  refine ⟨_, command, hbase, hvalue, hwords, ?_⟩
  intro source t c h
  obtain ⟨base, cflags, libs, u, v, hflags, hcflags, -, rfl⟩ := resolve_cases h
  obtain rfl := Except.ok.inj (hbase.symm.trans hflags)
  refine ⟨cflags, u, hcflags, ?_⟩
  simp [configure, appendSegments]

/-- A request in which much is special to the shell or to Ninja. -/
def oddRequest : FlagRequest where
  compiler := "c++"
  linker := "c++"
  root := "/it's $HOME"
  includeDir := "^a\\\x22\x60!^"
  packages := ["zlib", "none"]

theorem words_baseFlags_oddRequest :
    oddRequest.compileOverride = none ∧ '\x00' ∉ oddRequest.root.text ∧
      '\x00' ∉ oddRequest.includeDir ∧
    ∃ flags command : Text, oddRequest.baseFlags = .ok flags ∧
      readValue flags = command.map .char ∧
      Shell.words? command = some [("-Wall" : Text), "-Wextra", "-std=c++17",
        "-I/it's $HOME/^a\\\x22\x60!^", "-fPIC", "-O0", "-g", "-DDEBUG"] := by
  have hroot : '\x00' ∉ oddRequest.root.text := by decide
  have hdir : '\x00' ∉ oddRequest.includeDir := by decide
  obtain ⟨flags, command, hflags, hvalue, hwords, -⟩ := words_baseFlags (r := oddRequest) rfl hroot hdir
  exact ⟨rfl, hroot, hdir, flags, command, hflags, hvalue, hwords⟩

/-! ### Values -/

theorem joinWords_compileParts_ne_nil (r : FlagRequest) (dir : Text) (cflags : List Text) :
    joinWords (r.compileParts dir cflags) ≠ [] := by
  intro h
  have hproper := BuildFile.joinWords_eq_nil_iff.mp h
  unfold compileParts at hproper
  rw [BuildFile.properWords_cons_of_trimmed (commonFlagsWith_ne_nil dir) (trim_commonFlagsWith dir)]
    at hproper
  cases hproper

theorem appendSegments_double (words answers : List Text) :
    appendSegments (Text.double '$' (joinWords words)) (answers.map (Text.double '$')) =
      Text.double '$' (joinWords (words ++ answers)) := by
  rw [BuildFile.double_joinWords, BuildFile.appendSegments_joinWords, BuildFile.double_joinWords,
    List.map_append]

/-- **What is not the user's is taken literally.**  Without overrides, the flags for linking stand
for the text of their parts, whatever is written behind them: the common flags with the include
directory as it is quoted for the shell, the flags of the mode and the answers of the packages, each
trimmed and none blank.  So do the flags for compiling up to those for the dependency file, which
are evaluated as they are. -/
theorem readValue_resolve (hcompile : r.compileOverride = none) (hlink : r.linkOverride = none)
    (h : (r.resolve source t).result = .ok c) :
    ∃ (dir : Text) (cflags libs : List Text) (u v : FileTree),
      Shell.quoteWord? r.includePath = some dir ∧
      source.Answers .cflags t r.packages cflags u ∧ source.Answers .libs u r.packages libs v ∧
      ∀ after : Text,
        readValue (c.linkFlags ++ after) =
          (joinWords (commonFlagsWith dir :: r.mode.flags :: cflags ++ libs)).map .char ++
            readValue after ∧
        readValue (c.compileFlags ++ after) =
          (joinWords (commonFlagsWith dir :: r.mode.flags :: cflags)).map .char ++
            readValue (spaced r.depFlags ++ after) := by
  obtain ⟨base, cflags, libs, u, v, hbase, hcflags, hlibs, rfl⟩ := resolve_cases h
  obtain ⟨dir, hdir, rfl⟩ := quoteWord_of_baseFlags hcompile hbase
  have hcompiled : appendSegments (Text.double '$' (joinWords (r.compileParts dir [])))
      (cflags.map (Text.double '$')) = Text.double '$' (joinWords (r.compileParts dir cflags)) :=
    appendSegments_double _ _
  have hne : Text.double '$' (joinWords (r.compileParts dir cflags)) ≠ [] :=
    mt Text.double_eq_nil_iff.mp (joinWords_compileParts_ne_nil r dir cflags)
  refine ⟨dir, cflags, libs, u, v, hdir, hcflags, hlibs, fun after => ⟨?_, ?_⟩⟩
  · simp only [configure, hlink, Option.getD_none, hcompiled]
    rw [appendSegments_double, BuildFile.readValue_double]
    rfl
  · simp only [configure, hcompiled]
    rw [appendSegment_eq hne, List.append_assoc, BuildFile.readValue_double]
    rfl

/-- The variable in the default flags for the dependency file is evaluated. -/
example : readValue (spaced defaultDepFlags) =
    (" -MMD -MF " : Text).map .char ++ .reference "out" :: (".d" : Text).map .char := by rfl

/-- Answers with dollar signs and blanks. -/
def oddAnswers : PackageAnswers
  | ['z', 'l', 'i', 'b'], .cflags => .ok " -I$HOME/zlib\n"
  | ['z', 'l', 'i', 'b'], .libs => .ok "-Wl,-rpath,$$ORIGIN/lib -lz$"
  | _, _ => .ok " \t"

/-- What compiling and linking have in common in the odd request. -/
def oddParts : Text :=
  ("-Wall -Wextra -std=c++17 -I\x22/it's \x22'$$HOME/''^a'\x22\\\\\\\x22\x22'\x60!''^'" : Text) ++
    (" -fPIC -O0 -g -DDEBUG -I$$HOME/zlib" : Text)

def oddConfig : FlagConfig where
  compiler := "c++"
  linker := "c++"
  compileFlags := oddParts ++ (" -MMD -MF $out.d" : Text)
  linkFlags := oddParts ++ (" -Wl,-rpath,$$$$ORIGIN/lib -lz$$" : Text)
  depFlags := "-MMD -MF $out.d"
  mode := .debug

theorem resolve_oddRequest : (oddRequest.resolve oddAnswers.source {}).result = .ok oddConfig := by
  rfl

theorem readValue_resolve_oddRequest :
    oddRequest.compileOverride = none ∧ oddRequest.linkOverride = none ∧
      (oddRequest.resolve oddAnswers.source {}).result = .ok oddConfig ∧
    ∃ (dir : Text) (cflags libs : List Text),
      Shell.quoteWord? oddRequest.includePath = some dir ∧ ∀ after : Text,
        readValue (oddConfig.linkFlags ++ after) =
          (joinWords (commonFlagsWith dir :: BuildMode.debug.flags :: cflags ++ libs)).map .char ++
            readValue after ∧
        readValue (oddConfig.compileFlags ++ after) =
          (joinWords (commonFlagsWith dir :: BuildMode.debug.flags :: cflags)).map .char ++
            readValue (spaced oddRequest.depFlags ++ after) := by
  obtain ⟨dir, cflags, libs, -, -, hdir, -, -, hvalues⟩ :=
    readValue_resolve (r := oddRequest) rfl rfl resolve_oddRequest
  exact ⟨rfl, rfl, resolve_oddRequest, dir, cflags, libs, hdir, hvalues⟩

end FlagRequest
end NinjaPlan
