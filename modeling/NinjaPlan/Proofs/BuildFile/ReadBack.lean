import NinjaPlan.Proofs.BuildFile.Paths
import NinjaPlan.Proofs.Plan.Edges

/-! # Reading back what was written

A text *tells* statements if a reader finds them at the beginning of every file that begins with
the text (`Tells`).  Telling is kept when texts are put together, so it is enough to look at single
lines: an edge tells its build statement, and the file that `render` writes tells what the plan and
the flags ask for (`tells_of_render`). -/

namespace NinjaPlan.BuildFile

/-- A text tells statements, whatever comes behind it. -/
def Tells (σ : PathSyntax) (text : Text) (found : List Statement) : Prop :=
  ∀ rest, read σ (text ++ rest) = (read σ rest).map (found ++ ·)

section tells

variable {σ : PathSyntax} {text other line : Text} {found more : List Statement}

theorem tells_nil : Tells σ [] [] := by
  intro rest
  exact Option.map_id'.symm

theorem Tells.append (h : Tells σ text found) (g : Tells σ other more) :
    Tells σ (text ++ other) (found ++ more) := by
  intro rest
  rw [List.append_assoc, h, g, Option.map_map]
  simp [Function.comp_def]

theorem Tells.read (h : Tells σ text found) : read σ text = some found := by
  have hend : BuildFile.read σ [] = some [] := rfl
  have hfile := h []
  rw [List.append_nil, hend] at hfile
  simpa using hfile

theorem tells_empty_line : Tells σ ['\n'] [] := by
  intro rest
  have hlines : Text.pieces '\n' (['\n'] ++ rest) = [] :: Text.pieces '\n' rest :=
    Text.pieces_append_cons List.not_mem_nil rest
  unfold BuildFile.read
  rw [hlines, readLines, if_pos rfl]
  exact Option.map_id'.symm

theorem tells_line {s : Statement} (hn : '\n' ∉ line) (hs : readLine σ line = some s) :
    Tells σ (line ++ ['\n']) [s] := by
  intro rest
  have hlines : Text.pieces '\n' (line ++ ['\n'] ++ rest) = line :: Text.pieces '\n' rest := by
    rw [List.append_assoc]
    exact Text.pieces_append_cons hn rest
  have hne : line ≠ [] := by
    rintro rfl
    cases hs
  unfold BuildFile.read
  rw [hlines, readLines, if_neg hne, hs]
  cases readLines σ (Text.pieces '\n' rest) with
  | none => rfl
  | some found => rfl

theorem tells_edgeLines {α : Type} {line : α → Except RenderError Text} {statement : α → Statement}
    {edges : List α} (hline : ∀ e ∈ edges, ∀ text, line e = .ok text → Tells σ text [statement e])
    {text : Text} (h : edgeLines line edges = .ok text) : Tells σ text (edges.map statement) := by
  induction edges generalizing text with
  | nil =>
      obtain rfl : [] = text := Except.ok.inj h
      exact tells_nil
  | cons e edges ih =>
      obtain ⟨first, hfirst, h⟩ := bind_eq_ok_iff.mp h
      obtain ⟨others, hothers, h⟩ := bind_eq_ok_iff.mp h
      obtain rfl : first ++ others = text := Except.ok.inj h
      have htells := hline e List.mem_cons_self first hfirst
      exact htells.append (ih (fun d hd => hline d (List.mem_cons_of_mem _ hd)) hothers)

theorem tells_blockEnd {α : Type} (edges : List α) : Tells σ (blockEnd edges) [] := by
  cases edges with
  | nil => exact tells_nil
  | cons e edges => exact tells_empty_line

end tells

/-! ### Rules -/

section rules

variable {σ : PathSyntax} {compile link : Text}

theorem ensureSingleLine_ok {rule command : Text} (h : ensureSingleLine rule command = .ok ()) :
    '\n' ∉ command := by
  unfold ensureSingleLine at h
  cases hb : Text.hasLineBreak command with
  | true => simp [hb] at h
  | false => exact newline_not_mem_of_hasLineBreak hb

theorem readLine_command (command : Text) :
    readLine σ (("  command = " : Text) ++ command) = some (.binding "command" command) := by
  simp [readLine, after?, readBinding, takeName]

theorem tells_command {command : Text} (h : '\n' ∉ command) :
    Tells σ (("  command = " : Text) ++ command ++ ['\n']) [.binding "command" command] := by
  exact tells_line (List.not_mem_append (by decide) h) (readLine_command command)

theorem ruleLines_eq : ruleLines compile link =
    ("rule cxx" : Text) ++ ['\n'] ++ (("  depfile = $out.d" : Text) ++ ['\n']) ++
      (("  command = " : Text) ++ compile ++ ['\n']) ++ ['\n'] ++
      (("rule link" : Text) ++ ['\n']) ++ (("  command = " : Text) ++ link ++ ['\n']) ++
      ['\n'] := by
  unfold ruleLines
  simp only [List.append_assoc]
  rfl

theorem tells_ruleLines (hc : '\n' ∉ compile) (hl : '\n' ∉ link) :
    Tells σ (ruleLines compile link)
      [.rule compileRule, .binding "depfile" depfile, .binding "command" compile,
        .rule linkRule, .binding "command" link] := by
  have hcompile : Tells σ (("rule cxx" : Text) ++ ['\n']) [.rule compileRule] :=
    tells_line (by decide) rfl
  have hdepfile : Tells σ (("  depfile = $out.d" : Text) ++ ['\n'])
      [.binding "depfile" depfile] := tells_line (by decide) rfl
  have hlink : Tells σ (("rule link" : Text) ++ ['\n']) [.rule linkRule] :=
    tells_line (by decide) rfl
  have hblock := (hcompile.append hdepfile).append (tells_command hc)
  rw [ruleLines_eq]
  exact (((hblock.append tells_empty_line).append hlink).append (tells_command hl)).append
    tells_empty_line

end rules

/-! ### Edges -/

section edges

variable {σ : PathSyntax} {text : Text}

theorem readLine_build (line : Text) :
    readLine σ (("build " : Text) ++ line) = readBuild σ line := by
  simp [readLine, after?]

theorem readLine_default (line : Text) : readLine σ (("default" : Text) ++ line) =
    (takePaths σ line.length line).map .defaults := by
  simp [readLine, after?]

theorem takeName_append {name : Text} (hname : ' ' ∉ name) {rest : Text}
    (hrest : ∀ c ∈ rest.head?, c = ' ') : takeName (name ++ rest) = (name, rest) := by
  have hchars : ∀ c ∈ name, (c != ' ') = true := by
    intro c hc
    refine bne_iff_ne.mpr ?_
    rintro rfl
    exact hname hc
  unfold takeName
  rw [List.takeWhile_append_of_pos hchars, List.dropWhile_append_of_pos hchars]
  cases rest with
  | nil => simp
  | cons c rest =>
      obtain rfl := hrest c rfl
      simp

/-- A build statement as it is written. -/
def buildText (output rule : Text) (inputs : List Text) : Text :=
  "build " ++ (escaped output ++ (": " ++ (rule ++ escapedAll inputs)))

theorem readLine_buildText (hσ : σ.KnowsEscapes) {output rule : Text} {inputs : List Text}
    (hout : σ.Expresses output) (hrule : ' ' ∉ rule) (hin : ∀ s ∈ inputs, σ.Expresses s) :
    readLine σ (buildText output rule inputs) = some (.build output rule inputs) := by
  have hpath : takePath σ (escaped output ++ (": " ++ (rule ++ escapedAll inputs))) =
      some (output, ": " ++ (rule ++ escapedAll inputs)) :=
    takePath_escaped hσ hout fun c hc => Or.inr (Option.some.inj hc).symm
  have hname : takeName (rule ++ escapedAll inputs) = (rule, escapedAll inputs) := by
    refine takeName_append hrule ?_
    intro c hc
    cases inputs with
    | nil => cases hc
    | cons s inputs => exact (Option.some.inj hc).symm
  have hafter : after? ": " (": " ++ (rule ++ escapedAll inputs)) =
      some (rule ++ escapedAll inputs) := by
    simp [after?]
  unfold buildText
  rw [readLine_build]
  unfold readBuild
  simp only [hpath, Option.bind_eq_bind, Option.bind_some, hafter, hname,
    takePaths_escapedAll hσ hin]
  rfl

theorem newline_not_mem_escapedAll {inputs : List Text} (h : ∀ s ∈ inputs, '\n' ∉ s) :
    '\n' ∉ escapedAll inputs := by
  intro hmem
  obtain ⟨s, hs, hmem⟩ := List.mem_flatMap.mp hmem
  rcases List.mem_cons.mp hmem with hspace | hmem
  · cases hspace
  · exact h s hs (newline_mem_escaped_iff.mp hmem)

theorem newline_not_mem_buildText {output rule : Text} {inputs : List Text} (hout : '\n' ∉ output)
    (hrule : '\n' ∉ rule) (hin : ∀ s ∈ inputs, '\n' ∉ s) :
    '\n' ∉ buildText output rule inputs := by
  have hall := newline_not_mem_escapedAll hin
  have hpath : '\n' ∉ escaped output := fun h => hout (newline_mem_escaped_iff.mp h)
  unfold buildText
  simp [hall, hpath, hrule]

theorem compileLine_ok {e : CompileEdge} (h : compileLine e = .ok text) :
    text = buildText e.object.text compileRule [e.source.text] ++ ['\n'] ∧
      '\n' ∉ e.object.text ∧ '\n' ∉ e.source.text := by
  obtain ⟨object, hobject, h⟩ := bind_eq_ok_iff.mp h
  obtain ⟨source, hsource, h⟩ := bind_eq_ok_iff.mp h
  obtain ⟨rfl, hno⟩ := escapePath_ok hobject
  obtain ⟨rfl, hns⟩ := escapePath_ok hsource
  refine ⟨?_, hno, hns⟩
  rw [← Except.ok.inj h]
  unfold buildText compileRule
  simp [escapedAll]

/-- A space before words that have spaces between them is a space before each. -/
theorem cons_intercalate {words : List Text} (h : words ≠ []) :
    ' ' :: [' '].intercalate words = words.flatMap fun w => ' ' :: w := by
  induction words with
  | nil => exact absurd rfl h
  | cons w words ih =>
      cases words with
      | nil => simp
      | cons v words =>
          rw [List.intercalate_cons_cons, List.flatMap_cons, ← ih (by simp)]
          simp

/-- A space and words with spaces between them, or nothing if these are no text at all. -/
theorem optional_words (words : List Text) :
    (if ([' '].intercalate words).isEmpty then [] else ' ' :: [' '].intercalate words) =
      (if words = [[]] then [] else words).flatMap fun w => ' ' :: w := by
  cases words with
  | nil => rfl
  | cons w words =>
      by_cases hempty : w :: words = [[]]
      · rw [hempty]
        rfl
      · have hne : ([' '].intercalate (w :: words)).isEmpty = false := by
          cases words with
          | nil => simpa using hempty
          | cons v words => simp
        rw [hne, if_neg hempty, ← cons_intercalate (List.cons_ne_nil w words)]
        rfl

theorem map_escaped_eq_iff {texts : List Text} : texts.map escaped = [[]] ↔ texts = [[]] := by
  constructor
  · intro h
    obtain ⟨s, rfl, hs⟩ := List.map_eq_singleton_iff.mp h
    rw [Decidable.byContradiction fun hne => escaped_ne_nil hne hs]
  · rintro rfl
    rfl

/-- The inputs of a link edge that are written: all of them, unless an empty one is the only one. -/
def writtenInputs (e : LinkEdge) : List Text :=
  if e.inputs.map Path.text = [[]] then [] else e.inputs.map Path.text

theorem writtenInputs_eq {e : LinkEdge} (h : ∀ i ∈ e.inputs, i.text ≠ []) :
    writtenInputs e = e.inputs.map Path.text := by
  refine if_neg fun hempty => ?_
  obtain ⟨i, hi, htext⟩ := List.map_eq_singleton_iff.mp hempty
  exact h i (by simp [hi]) htext

theorem linkLine_ok {e : LinkEdge} (h : linkLine e = .ok text) :
    text = buildText e.output.text linkRule (writtenInputs e) ++ ['\n'] ∧
      '\n' ∉ e.output.text ∧ ∀ s ∈ writtenInputs e, '\n' ∉ s := by
  obtain ⟨output, houtput, h⟩ := bind_eq_ok_iff.mp h
  obtain ⟨words, hwords, h⟩ := bind_eq_ok_iff.mp h
  obtain ⟨rfl, hno⟩ := escapePath_ok houtput
  obtain ⟨rfl, hni⟩ := escapePaths_ok hwords
  have hinputs : ∀ s ∈ writtenInputs e, '\n' ∉ s := by
    unfold writtenInputs
    split_ifs
    · simp
    · exact List.forall_mem_map.mpr hni
  refine ⟨?_, hno, hinputs⟩
  have hwords : e.inputs.map (fun p => escaped p.text) = (e.inputs.map Path.text).map escaped := by
    rw [List.map_map]
    rfl
  have hwritten : (if (e.inputs.map Path.text).map escaped = [[]] then []
      else (e.inputs.map Path.text).map escaped) = (writtenInputs e).map escaped := by
    unfold writtenInputs
    simp only [map_escaped_eq_iff]
    split_ifs <;> rfl
  rw [← Except.ok.inj h, hwords, optional_words, hwritten, List.flatMap_map]
  unfold buildText linkRule
  simp [escapedAll]

theorem tells_compileLine (hσ : σ.KnowsEscapes) {e : CompileEdge}
    (hobject : σ.Expresses e.object.text) (hsource : σ.Expresses e.source.text)
    (h : compileLine e = .ok text) :
    Tells σ text [.build e.object.text compileRule [e.source.text]] := by
  obtain ⟨rfl, hno, hns⟩ := compileLine_ok h
  have hsources : ∀ s ∈ [e.source.text], σ.Expresses s := List.forall_mem_singleton.mpr hsource
  refine tells_line ?_ (readLine_buildText hσ hobject (by decide) hsources)
  exact newline_not_mem_buildText hno (by decide) (List.forall_mem_singleton.mpr hns)

theorem tells_linkLine (hσ : σ.KnowsEscapes) {e : LinkEdge} (houtput : σ.Expresses e.output.text)
    (hinputs : ∀ i ∈ e.inputs, σ.Expresses i.text) (hne : ∀ i ∈ e.inputs, i.text ≠ [])
    (h : linkLine e = .ok text) :
    Tells σ text [.build e.output.text linkRule (e.inputs.map Path.text)] := by
  obtain ⟨rfl, hno, hni⟩ := linkLine_ok h
  rw [writtenInputs_eq hne] at hni ⊢
  have hin : ∀ s ∈ e.inputs.map Path.text, σ.Expresses s := List.forall_mem_map.mpr hinputs
  refine tells_line ?_ (readLine_buildText hσ houtput (by decide) hin)
  exact newline_not_mem_buildText hno (by decide) hni

theorem tells_default (hσ : σ.KnowsEscapes) {target : Path} (htarget : σ.Expresses target.text)
    {word : Text} (h : escapePath target = .ok word) :
    Tells σ (("default " : Text) ++ word ++ ['\n']) [.defaults [target.text]] := by
  obtain ⟨rfl, hn⟩ := escapePath_ok h
  have hword : ("default " : Text) ++ escaped target.text =
      ("default" : Text) ++ escapedAll [target.text] := by
    simp [escapedAll]
  rw [hword]
  refine tells_line ?_ ?_
  · have hall := newline_not_mem_escapedAll (List.forall_mem_singleton.mpr hn)
    exact List.not_mem_append (by decide) hall
  · rw [readLine_default, takePaths_escapedAll hσ (List.forall_mem_singleton.mpr htarget)]
    rfl

end edges

/-! ### The whole file -/

/-- A plan that can be written in a syntax: its paths are paths there, and no input of a link edge
is empty. -/
structure PathSyntax.ExpressesPlan (σ : PathSyntax) (p : Plan) : Prop where
  compiles : ∀ e ∈ p.compileEdges, σ.Expresses e.object.text ∧ σ.Expresses e.source.text
  outputs : ∀ e ∈ p.linkEdges, σ.Expresses e.output.text
  inputs : ∀ e ∈ p.linkEdges, ∀ i ∈ e.inputs, σ.Expresses i.text ∧ i.text ≠ []
  default : σ.Expresses p.defaultTarget.text

theorem tells_of_render {σ : PathSyntax} (hσ : σ.KnowsEscapes) {p : Plan} {c : FlagConfig}
    {text : Text} (hp : σ.ExpressesPlan p) (h : render p c = .ok text) :
    Tells σ text (statements p c) := by
  obtain ⟨_, hcompile, h⟩ := bind_eq_ok_iff.mp h
  obtain ⟨_, hlink, h⟩ := bind_eq_ok_iff.mp h
  obtain ⟨compileBlock, hcompiles, h⟩ := bind_eq_ok_iff.mp h
  obtain ⟨linkBlock, hlinks, h⟩ := bind_eq_ok_iff.mp h
  obtain ⟨target, htarget, h⟩ := bind_eq_ok_iff.mp h
  have hrules : Tells σ (ruleLines (compileCommand c) (linkCommand c)) _ :=
    tells_ruleLines (ensureSingleLine_ok hcompile) (ensureSingleLine_ok hlink)
  have hcompileBlock := tells_edgeLines (fun e he text ht =>
    tells_compileLine hσ (hp.compiles e he).1 (hp.compiles e he).2 ht) hcompiles
  have hlinkBlock := tells_edgeLines (fun e he text ht =>
    tells_linkLine hσ (hp.outputs e he) (fun i hi => (hp.inputs e he i hi).1)
      (fun i hi => (hp.inputs e he i hi).2) ht) hlinks
  have hdefault := tells_default hσ hp.default htarget
  have htells := ((((hrules.append hcompileBlock).append (tells_blockEnd p.compileEdges)).append
    hlinkBlock).append (tells_blockEnd p.linkEdges)).append hdefault
  rw [← Except.ok.inj h]
  simpa [statements] using htells

/-- A plan without empty inputs can be written where a dollar sign escapes every character. -/
theorem PathSyntax.lenient_expressesPlan {p : Plan} (hp : p.InputsNonempty) :
    PathSyntax.lenient.ExpressesPlan p where
  compiles e _ := ⟨lenient_expresses e.object.text, lenient_expresses e.source.text⟩
  outputs e _ := lenient_expresses e.output.text
  inputs e he i hi := ⟨lenient_expresses i.text, hp e he i hi⟩
  default := lenient_expresses p.defaultTarget.text

/-- **Reading undoes writing.**  The reader finds in a file exactly what the plan and the flags
ask for, if no input of a link edge is empty; and that holds of every plan that is assembled. -/
theorem read_render :
    (∀ (p : Plan) (c : FlagConfig) (text : Text), p.InputsNonempty → render p c = .ok text →
      read .lenient text = some (statements p c)) ∧
    ∀ (targets : List Target) (mapper : ObjectMapper) (entryPoint : Text) (p : Plan),
      Plan.assemble targets mapper entryPoint = .ok p → p.InputsNonempty := by
  refine ⟨?_, fun _ _ _ _ h => Plan.inputsNonempty_of_assemble h⟩
  intro p c text hp h
  have htells := tells_of_render PathSyntax.lenient_knowsEscapes
    (PathSyntax.lenient_expressesPlan hp) h
  exact htells.read

/-! ### A plan with odd paths -/

/-- A program whose paths hold dollar signs, spaces and a colon. -/
def oddTargets : List Target := [⟨⟨"my app:$", "src", .primary⟩, [⟨"/p/a b.cc"⟩, ⟨"/p/$$ .cc"⟩]⟩]

/-- Flags that hold what means something else in a path. -/
def oddFlags : FlagConfig where
  compiler := "c++"
  linker := " c++ "
  compileFlags := "-DX=$$: build"
  linkFlags := ""
  depFlags := ""
  mode := .debug

def oddPlan : Plan where
  compileEdges := [⟨"a b.cc", "a b.o"⟩, ⟨"$$ .cc", "$$ .o"⟩]
  linkEdges := [⟨"my app:$", ["a b.o", "$$ .o"]⟩]
  defaultTarget := "my app:$"

def oddFile : Text :=
  [("rule cxx" : Text), "  depfile = $out.d", "  command = c++ -DX=$$: build -c $in -o $out", "",
    "rule link", "  command = c++ $in -o $out", "", "build a$ b.o: cxx a$ b.cc",
    "build $$$$$ .o: cxx $$$$$ .cc", "", "build my$ app$:$$: link a$ b.o $$$$$ .o", "",
    "default my$ app$:$$"].flatMap fun line => line ++ ['\n']

theorem assemble_oddTargets :
    Plan.assemble oddTargets ⟨"/p", ⟨[]⟩⟩ "main" = .ok oddPlan := rfl

set_option maxRecDepth 4000 in
theorem render_oddPlan : render oddPlan oddFlags = .ok oddFile := by rfl

theorem read_oddFile :
    Plan.assemble oddTargets ⟨"/p", ⟨[]⟩⟩ "main" = .ok oddPlan ∧ oddPlan.InputsNonempty ∧
      render oddPlan oddFlags = .ok oddFile ∧
      read .lenient oddFile = some (statements oddPlan oddFlags) := by
  have hinputs := read_render.2 _ _ _ _ assemble_oddTargets
  exact ⟨assemble_oddTargets, hinputs, render_oddPlan, read_render.1 _ _ _ hinputs render_oddPlan⟩

end NinjaPlan.BuildFile
