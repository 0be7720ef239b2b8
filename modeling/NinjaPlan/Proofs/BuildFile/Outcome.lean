import NinjaPlan.Proofs.BuildFile.Checks
import NinjaPlan.Proofs.BuildFile.Lines

/-! # When a build file is written, and its lines

A build file is written unless a command or a path holds a line break, and the error is that of the
first of them (`checks_render`).  In a command a line break counts only where trimming its words
leaves it (`hasLineBreak_joinWords`).

A file that is written consists of the lines of `fileLines`, from the two rules down to the default
target.  Between them there is one line for each edge, in order; compile edges and link edges are
each followed by an empty line if there are any.  Together: `render_outcome`. -/

namespace NinjaPlan.BuildFile

/-! ### Breaks in commands -/

theorem hasLineBreak_append (s t : Text) :
    Text.hasLineBreak (s ++ t) = (Text.hasLineBreak s || Text.hasLineBreak t) :=
  List.any_append

theorem hasLineBreak_intercalate (words : List Text) :
    Text.hasLineBreak ([' '].intercalate words) = words.any Text.hasLineBreak := by
  induction words with
  | nil => rfl
  | cons w words ih =>
      cases words with
      | nil => simp
      | cons v words =>
          have hspace : Text.hasLineBreak [' '] = false := rfl
          rw [List.intercalate_cons_cons, hasLineBreak_append, hasLineBreak_append, ih, hspace,
            Bool.or_false, @List.any_cons _ w]

theorem hasLineBreak_joinWords (words : List Text) : Text.hasLineBreak (joinWords words) =
    words.any fun w => Text.hasLineBreak w.trim := by
  rw [joinWords, hasLineBreak_intercalate]
  induction words with
  | nil => rfl
  | cons w words ih =>
      rw [List.map_cons, List.any_cons, ← ih]
      cases hw : w.trim with
      | nil => simp [Text.hasLineBreak]
      | cons c cs => simp

theorem hasLineBreak_compileCommand (c : FlagConfig) :
    Text.hasLineBreak (compileCommand c) = true ↔
      Text.hasLineBreak c.compiler.trim = true ∨ Text.hasLineBreak c.compileFlags.trim = true := by
  have hplain : Text.hasLineBreak (Text.trim "-c $in -o $out") = false := by decide
  rw [compileCommand, hasLineBreak_joinWords]
  simp only [List.any_cons, List.any_nil, hplain, Bool.or_false, Bool.or_eq_true]

theorem hasLineBreak_linkCommand (c : FlagConfig) :
    Text.hasLineBreak (linkCommand c) = true ↔
      Text.hasLineBreak c.linker.trim = true ∨ Text.hasLineBreak c.linkFlags.trim = true := by
  have hin : Text.hasLineBreak (Text.trim "$in") = false := by decide
  have hout : Text.hasLineBreak (Text.trim "-o $out") = false := by decide
  rw [linkCommand, hasLineBreak_joinWords]
  simp only [List.any_cons, List.any_nil, hin, hout, Bool.or_false, Bool.false_or,
    Bool.or_eq_true]

/-! ### Lines of edges -/

def compileStatement (e : CompileEdge) : Text :=
  buildText e.object.text compileRule [e.source.text]

def linkStatement (e : LinkEdge) : Text := buildText e.output.text linkRule (writtenInputs e)

def defaultStatement (target : Path) : Text := "default " ++ escaped target.text

/-- The empty line behind edges. -/
def gap {α : Type} : List α → List Text
  | [] => []
  | _ :: _ => [[]]

/-- The lines behind the rules, but for the default target. -/
def edgeStatements (p : Plan) : List Text :=
  p.compileEdges.map compileStatement ++ gap p.compileEdges ++
    p.linkEdges.map linkStatement ++ gap p.linkEdges

/-- The lines of the build file for a plan; there is nothing behind the end of the last one. -/
def fileLines (p : Plan) (c : FlagConfig) : List Text :=
  rules (compileCommand c) (linkCommand c) ++ edgeStatements p ++
    [defaultStatement p.defaultTarget, []]

theorem compileLine_eq {e : CompileEdge} {text : Text} (h : compileLine e = .ok text) :
    text = compileStatement e ++ ['\n'] ∧ '\n' ∉ compileStatement e := by
  obtain ⟨htext, hobject, hsource⟩ := compileLine_ok h
  exact ⟨htext, newline_not_mem_buildText hobject (by decide)
    (List.forall_mem_singleton.mpr hsource)⟩

theorem linkLine_eq {e : LinkEdge} {text : Text} (h : linkLine e = .ok text) :
    text = linkStatement e ++ ['\n'] ∧ '\n' ∉ linkStatement e := by
  obtain ⟨htext, houtput, hinputs⟩ := linkLine_ok h
  exact ⟨htext, newline_not_mem_buildText houtput (by decide) hinputs⟩

theorem edgeLines_eq {α : Type} {line : α → Except RenderError Text} {statement : α → Text}
    (hline : ∀ e text, line e = .ok text → text = statement e ++ ['\n'] ∧ '\n' ∉ statement e)
    {edges : List α} {text : Text} (h : edgeLines line edges = .ok text) :
    text = (edges.map statement).flatMap (· ++ ['\n']) ∧ ∀ l ∈ edges.map statement, '\n' ∉ l := by
  induction edges generalizing text with
  | nil =>
      obtain rfl : [] = text := Except.ok.inj h
      exact ⟨rfl, by simp⟩
  | cons e edges ih =>
      obtain ⟨first, hfirst, h⟩ := bind_eq_ok_iff.mp h
      obtain ⟨others, hothers, h⟩ := bind_eq_ok_iff.mp h
      obtain ⟨rfl, hn⟩ := hline e first hfirst
      obtain ⟨rfl, hns⟩ := ih hothers
      rw [List.map_cons]
      exact ⟨(Except.ok.inj h).symm, List.forall_mem_cons.mpr ⟨hn, hns⟩⟩

theorem blockEnd_eq {α : Type} (edges : List α) :
    blockEnd edges = (gap edges).flatMap (· ++ ['\n']) := by
  cases edges <;> rfl

theorem newline_not_mem_gap {α : Type} (edges : List α) : ∀ line ∈ gap edges, '\n' ∉ line := by
  cases edges <;> simp [gap]

/-! ### The lines of a file -/

theorem statementText_eq {p : Plan} {rest : Text} (h : statementText p = .ok rest) :
    rest = (edgeStatements p).flatMap (· ++ ['\n']) ++
        (defaultStatement p.defaultTarget ++ ['\n']) ∧
      (∀ line ∈ edgeStatements p, '\n' ∉ line) ∧ '\n' ∉ defaultStatement p.defaultTarget := by
  have hend : ("\n" : Text) = ['\n'] := rfl
  have hstatement : defaultStatement p.defaultTarget =
      ("default " : Text) ++ escaped p.defaultTarget.text := rfl
  obtain ⟨compileBlock, hcompiles, h⟩ := bind_eq_ok_iff.mp h
  obtain ⟨linkBlock, hlinks, h⟩ := bind_eq_ok_iff.mp h
  obtain ⟨target, htarget, h⟩ := bind_eq_ok_iff.mp h
  obtain ⟨hcompileText, hcompile⟩ := edgeLines_eq @compileLine_eq hcompiles
  obtain ⟨hlinkText, hlink⟩ := edgeLines_eq @linkLine_eq hlinks
  obtain ⟨htargetText, hdefault⟩ := escapePath_ok htarget
  have hlast : '\n' ∉ defaultStatement p.defaultTarget := by
    rw [hstatement]
    exact List.not_mem_append (by decide) (mt newline_mem_escaped_iff.mp hdefault)
  have hall : ∀ line ∈ edgeStatements p, '\n' ∉ line := by
    simp only [edgeStatements, List.forall_mem_append]
    exact ⟨⟨⟨hcompile, newline_not_mem_gap _⟩, hlink⟩, newline_not_mem_gap _⟩
  refine ⟨?_, hall, hlast⟩
  rw [← Except.ok.inj h, hcompileText, hlinkText, htargetText, blockEnd_eq, blockEnd_eq, hend,
    hstatement]
  simp only [edgeStatements, List.flatMap_append, List.append_assoc]

theorem pieces_statementText {p : Plan} {rest : Text} (h : statementText p = .ok rest) :
    Text.pieces '\n' rest = edgeStatements p ++ [defaultStatement p.defaultTarget, []] := by
  obtain ⟨rfl, hall, hlast⟩ := statementText_eq h
  rw [pieces_flatMap_lines hall, Text.pieces_append_cons hlast]
  rfl

theorem pieces_of_render {p : Plan} {c : FlagConfig} {text : Text} (h : render p c = .ok text) :
    Text.pieces '\n' text = fileLines p c := by
  obtain ⟨rest, hrest, rfl, hc, hl⟩ := render_ok h
  rw [pieces_ruleLines hc hl, pieces_statementText hrest, fileLines, List.append_assoc]

/-- The lines of a file that begin with a word. -/
def linesWith (word file : Text) : List Text := (Text.pieces '\n' file).filter word.isPrefixOf

/-- Behind the rules only the lines of edges can begin with a word. -/
theorem filter_edgeStatements {word : Text} (h : word.isPrefixOf [] = false) (p : Plan) :
    (edgeStatements p).filter word.isPrefixOf =
      (p.compileEdges.map compileStatement).filter word.isPrefixOf ++
        (p.linkEdges.map linkStatement).filter word.isPrefixOf := by
  have hgap : ∀ {α : Type} (edges : List α), (gap edges).filter word.isPrefixOf = [] := by
    intro α edges
    cases edges <;> simp [gap, h]
  rw [edgeStatements, List.filter_append, List.filter_append, List.filter_append, hgap, hgap,
    List.append_nil, List.append_nil]

theorem linesWith_build {p : Plan} {c : FlagConfig} {text : Text} (h : render p c = .ok text) :
    linesWith "build " text =
      p.compileEdges.map compileStatement ++ p.linkEdges.map linkStatement := by
  have hcompile : ∀ line ∈ p.compileEdges.map compileStatement,
      ("build " : Text).isPrefixOf line = true :=
    List.forall_mem_map.mpr fun e _ => rfl
  have hlink : ∀ line ∈ p.linkEdges.map linkStatement,
      ("build " : Text).isPrefixOf line = true :=
    List.forall_mem_map.mpr fun e _ => rfl
  have hrules : (rules (compileCommand c) (linkCommand c)).filter ("build " : Text).isPrefixOf =
      [] := rfl
  have hdefault : [defaultStatement p.defaultTarget, []].filter ("build " : Text).isPrefixOf =
      [] := rfl
  rw [linesWith, pieces_of_render h, fileLines, List.filter_append, List.filter_append, hrules,
    hdefault, filter_edgeStatements rfl, List.filter_eq_self.mpr hcompile,
    List.filter_eq_self.mpr hlink, List.nil_append, List.append_nil]

theorem filter_edgeStatements_eq_nil {word : Text} (h : word.isPrefixOf [] = false)
    (hbuild : ∀ rest, word.isPrefixOf (("build " : Text) ++ rest) = false) (p : Plan) :
    (edgeStatements p).filter word.isPrefixOf = [] := by
  rw [filter_edgeStatements h, List.append_eq_nil_iff, List.filter_eq_nil_iff,
    List.filter_eq_nil_iff]
  constructor
  · refine List.forall_mem_map.mpr fun e _ => ?_
    exact Bool.eq_false_iff.mp (hbuild _)
  · refine List.forall_mem_map.mpr fun e _ => ?_
    exact Bool.eq_false_iff.mp (hbuild _)

theorem linesWith_rule {p : Plan} {c : FlagConfig} {text : Text} (h : render p c = .ok text) :
    linesWith "rule " text = [("rule " : Text) ++ compileRule, ("rule " : Text) ++ linkRule] := by
  have hrules : (rules (compileCommand c) (linkCommand c)).filter ("rule " : Text).isPrefixOf =
      [("rule " : Text) ++ compileRule, ("rule " : Text) ++ linkRule] := rfl
  have hdefault : [defaultStatement p.defaultTarget, []].filter ("rule " : Text).isPrefixOf =
      [] := rfl
  rw [linesWith, pieces_of_render h, fileLines, List.filter_append, List.filter_append, hrules,
    hdefault, filter_edgeStatements_eq_nil rfl fun _ => rfl, List.append_nil, List.append_nil]

theorem linesWith_default {p : Plan} {c : FlagConfig} {text : Text} (h : render p c = .ok text) :
    linesWith "default " text = [defaultStatement p.defaultTarget] := by
  have hrules : (rules (compileCommand c) (linkCommand c)).filter ("default " : Text).isPrefixOf =
      [] := rfl
  have hdefault : [defaultStatement p.defaultTarget, []].filter ("default " : Text).isPrefixOf =
      [defaultStatement p.defaultTarget] := rfl
  rw [linesWith, pieces_of_render h, fileLines, List.filter_append, List.filter_append, hrules,
    hdefault, filter_edgeStatements_eq_nil rfl fun _ => rfl, List.append_nil, List.nil_append]

/-! ### Outcomes -/

/-- Why a build file is not written: the first line break, in the order of writing. -/
inductive Refused (p : Plan) (c : FlagConfig) : RenderError → Prop where
  | compile (hcompile : Text.hasLineBreak (compileCommand c) = true) :
      Refused p c (.newlineInCommand compileRule)
  | link (hcompile : Text.hasLineBreak (compileCommand c) = false)
      (hlink : Text.hasLineBreak (linkCommand c) = true) :
      Refused p c (.newlineInCommand linkRule)
  | path (hcompile : Text.hasLineBreak (compileCommand c) = false)
      (hlink : Text.hasLineBreak (linkCommand c) = false)
      {before after : List Path} {q : Path} (hpaths : p.paths = before ++ q :: after)
      (hbefore : ∀ r ∈ before, Text.hasLineBreak r.text = false)
      (hq : Text.hasLineBreak q.text = true) : Refused p c (.newlineInPath q.text)

/-- What comes of writing a build file. -/
structure Outcome (p : Plan) (c : FlagConfig) : Prop where
  /-- A break counts where it is left when the words of the command are trimmed. -/
  compile : Text.hasLineBreak (compileCommand c) = true ↔
    Text.hasLineBreak c.compiler.trim = true ∨ Text.hasLineBreak c.compileFlags.trim = true
  link : Text.hasLineBreak (linkCommand c) = true ↔
    Text.hasLineBreak c.linker.trim = true ∨ Text.hasLineBreak c.linkFlags.trim = true
  /-- The file is written if there is no break in a command or a path. -/
  written : (∃ text, render p c = .ok text) ↔ Text.hasLineBreak (compileCommand c) = false ∧
    Text.hasLineBreak (linkCommand c) = false ∧ ∀ q ∈ p.paths, Text.hasLineBreak q.text = false
  /-- Else the first break is reported. -/
  refused : ∀ e, render p c = .error e ↔ Refused p c e
  /-- The lines of the file, of which the last one is the default target. -/
  lines : ∀ text, render p c = .ok text → Text.pieces '\n' text = fileLines p c
  /-- There are two rules. -/
  rules : ∀ text, render p c = .ok text →
    linesWith "rule " text = [("rule " : Text) ++ compileRule, ("rule " : Text) ++ linkRule]
  /-- There is one line for each edge, in the order of the plan. -/
  edges : ∀ text, render p c = .ok text → linesWith "build " text =
    p.compileEdges.map compileStatement ++ p.linkEdges.map linkStatement
  /-- There is one default target. -/
  default : ∀ text, render p c = .ok text →
    linesWith "default " text = [defaultStatement p.defaultTarget]

theorem render_eq_error_iff {p : Plan} {c : FlagConfig} {e : RenderError} :
    render p c = .error e ↔ Refused p c e := by
  rw [checks_render p c e, firstBreak_cons, firstBreak_cons, firstBreak_map_ofPath]
  unfold Inline.ofCommand
  constructor
  · intro h
    split at h
    next hcompile =>
        obtain rfl := Option.some.inj h
        exact .compile hcompile
    next hcompile =>
        split at h
        next hlink =>
            obtain rfl := Option.some.inj h
            exact .link (Bool.eq_false_iff.mpr hcompile) hlink
        next hlink =>
            obtain ⟨q, hfind, rfl⟩ := Option.map_eq_some_iff.mp h
            obtain ⟨hq, before, after, hpaths, hbefore⟩ := List.find?_eq_some_iff_append.mp hfind
            refine .path (Bool.eq_false_iff.mpr hcompile) (Bool.eq_false_iff.mpr hlink) hpaths ?_ hq
            exact fun r hr => by simpa using hbefore r hr
  · intro h
    cases h with
    | compile hcompile => exact if_pos hcompile
    | link hcompile hlink =>
        rw [if_neg (Bool.eq_false_iff.mp hcompile), if_pos hlink]
    | path hcompile hlink hpaths hbefore hq =>
        rw [if_neg (Bool.eq_false_iff.mp hcompile), if_neg (Bool.eq_false_iff.mp hlink)]
        refine Option.map_eq_some_iff.mpr ⟨_, List.find?_eq_some_iff_append.mpr ?_, rfl⟩
        exact ⟨hq, _, _, hpaths, fun r hr => by simpa using hbefore r hr⟩

/-- **Line breaks are what a build file fails on.**  It is written exactly if neither command and no
path holds one, and then it consists of the two rules, a line for each edge and the default target;
else the first break is reported: that of the compile command, of the link command, or of a path in
the order of writing. -/
theorem render_outcome (p : Plan) (c : FlagConfig) : Outcome p c where
  compile := hasLineBreak_compileCommand c
  link := hasLineBreak_linkCommand c
  written := by
    rw [(checks_render p c).exists_ok_iff, List.forall_mem_cons, List.forall_mem_cons,
      List.forall_mem_map]
    exact Iff.rfl
  refused _ := render_eq_error_iff
  lines _ := pieces_of_render
  rules _ := linesWith_rule
  edges _ := linesWith_build
  default _ := linesWith_default

end NinjaPlan.BuildFile
