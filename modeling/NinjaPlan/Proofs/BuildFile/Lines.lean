import NinjaPlan.Proofs.BuildFile.ReadBack

/-! # The lines of a build file

A build file is its rules, which the flags alone decide, followed by its statements, which the plan
alone decides (`render_ok`).  The lines that are statements are therefore the same in all files of a
plan (`statementLines_of_render`). -/

namespace NinjaPlan.BuildFile

def isStatementLine (line : Text) : Bool :=
  (after? "build " line).isSome || (after? "default " line).isSome

/-- The lines that are build or default statements. -/
def statementLines (file : Text) : List Text := (Text.pieces '\n' file).filter isStatementLine

/-- The text behind the rules. -/
def statementText (p : Plan) : Except RenderError Text := do
  let compileBlock ← edgeLines compileLine p.compileEdges
  let linkBlock ← edgeLines linkLine p.linkEdges
  let target ← escapePath p.defaultTarget
  return compileBlock ++ blockEnd p.compileEdges ++ linkBlock ++ blockEnd p.linkEdges ++
    "default " ++ target ++ "\n"

variable {p : Plan} {c c' : FlagConfig} {text text' : Text}

theorem render_ok (h : render p c = .ok text) : ∃ rest, statementText p = .ok rest ∧
    text = ruleLines (compileCommand c) (linkCommand c) ++ rest ∧
    '\n' ∉ compileCommand c ∧ '\n' ∉ linkCommand c := by
  obtain ⟨_, hcompile, h⟩ := bind_eq_ok_iff.mp h
  obtain ⟨_, hlink, h⟩ := bind_eq_ok_iff.mp h
  obtain ⟨compileBlock, hcompiles, h⟩ := bind_eq_ok_iff.mp h
  obtain ⟨linkBlock, hlinks, h⟩ := bind_eq_ok_iff.mp h
  obtain ⟨target, htarget, h⟩ := bind_eq_ok_iff.mp h
  have hrest : statementText p = .ok (compileBlock ++ blockEnd p.compileEdges ++ linkBlock ++
      blockEnd p.linkEdges ++ "default " ++ target ++ "\n") :=
    bind_eq_ok_iff.mpr ⟨_, hcompiles, bind_eq_ok_iff.mpr ⟨_, hlinks,
      bind_eq_ok_iff.mpr ⟨_, htarget, rfl⟩⟩⟩
  refine ⟨_, hrest, ?_, ensureSingleLine_ok hcompile, ensureSingleLine_ok hlink⟩
  rw [← Except.ok.inj h]
  simp only [List.append_assoc]

theorem pieces_flatMap_lines {lines : List Text} (h : ∀ line ∈ lines, '\n' ∉ line) (rest : Text) :
    Text.pieces '\n' (lines.flatMap (· ++ ['\n']) ++ rest) = lines ++ Text.pieces '\n' rest := by
  induction lines with
  | nil => rfl
  | cons line lines ih =>
      obtain ⟨hline, hlines⟩ := List.forall_mem_cons.mp h
      rw [List.flatMap_cons, List.append_assoc, List.append_assoc, List.singleton_append,
        Text.pieces_append_cons hline, ih hlines, List.cons_append]

/-- The lines of the rules, without their ends. -/
def rules (compile link : Text) : List Text :=
  ["rule cxx", "  depfile = $out.d", ("  command = " : Text) ++ compile, [], "rule link",
    ("  command = " : Text) ++ link, []]

theorem ruleLines_eq_flatMap (compile link : Text) :
    ruleLines compile link = (rules compile link).flatMap (· ++ ['\n']) := by
  rw [ruleLines_eq]
  simp only [rules, List.flatMap_cons, List.flatMap_nil, List.append_assoc, List.nil_append,
    List.append_nil]

theorem pieces_ruleLines {compile link : Text} (hc : '\n' ∉ compile) (hl : '\n' ∉ link)
    (rest : Text) : Text.pieces '\n' (ruleLines compile link ++ rest) =
      rules compile link ++ Text.pieces '\n' rest := by
  have hcompile : '\n' ∉ ("  command = " : Text) ++ compile := List.not_mem_append (by decide) hc
  have hlink : '\n' ∉ ("  command = " : Text) ++ link := List.not_mem_append (by decide) hl
  have hlines : ∀ line ∈ rules compile link, '\n' ∉ line := by
    simp only [rules, List.forall_mem_cons]
    exact ⟨by decide, by decide, hcompile, by simp, by decide, hlink, by simp, by simp⟩
  rw [ruleLines_eq_flatMap, pieces_flatMap_lines hlines]

theorem statementLines_of_render (h : render p c = .ok text) :
    ∃ rest, statementText p = .ok rest ∧ statementLines text = statementLines rest := by
  obtain ⟨rest, hrest, rfl, hc, hl⟩ := render_ok h
  refine ⟨rest, hrest, ?_⟩
  unfold statementLines
  rw [pieces_ruleLines hc hl, List.filter_append]
  simp [rules, isStatementLine, after?]

theorem statementLines_eq (h : render p c = .ok text) (h' : render p c' = .ok text') :
    statementLines text = statementLines text' := by
  obtain ⟨rest, hrest, hlines⟩ := statementLines_of_render h
  obtain ⟨rest', hrest', hlines'⟩ := statementLines_of_render h'
  obtain rfl := Except.ok.inj (hrest.symm.trans hrest')
  rw [hlines, hlines']

end NinjaPlan.BuildFile
