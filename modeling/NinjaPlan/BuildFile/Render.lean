import NinjaPlan.BuildFile.Escape
import NinjaPlan.Flags.Resolve
import NinjaPlan.Plan.Basic

/-! # Writing a build file

A build file holds two rules, one statement for each edge of the plan in order, and the default
target.  Blocks are separated by an empty line; a block without statements leaves none. -/

namespace NinjaPlan.BuildFile

def compileRule : Text := "cxx"

def linkRule : Text := "link"

/-- Where the compiler leaves its dependency file. -/
def depfile : Text := "$out.d"

/-! ### Commands -/

/-- The words, trimmed and with a space between them; blank ones are left out. -/
def joinWords (words : List Text) : Text :=
  [' '].intercalate ((words.map Text.trim).filter fun w => !w.isEmpty)

def compileCommand (c : FlagConfig) : Text :=
  joinWords [c.compiler, c.compileFlags, "-c $in -o $out"]

def linkCommand (c : FlagConfig) : Text :=
  joinWords [c.linker, "$in", c.linkFlags, "-o $out"]

/-- A command must fit on a line. -/
def ensureSingleLine (rule command : Text) : Except RenderError Unit :=
  if Text.hasLineBreak command then .error (.newlineInCommand rule) else .ok ()

/-! ### Statements -/

def ruleLines (compile link : Text) : Text :=
  "rule " ++ compileRule ++ "\n  depfile = " ++ depfile ++ "\n  command = " ++ compile ++
    "\n\nrule " ++ linkRule ++ "\n  command = " ++ link ++ "\n\n"

def compileLine (e : CompileEdge) : Except RenderError Text := do
  let object ← escapePath e.object
  let source ← escapePath e.source
  return "build " ++ object ++ ": " ++ compileRule ++ " " ++ source ++ "\n"

def linkLine (e : LinkEdge) : Except RenderError Text := do
  let output ← escapePath e.output
  let words ← escapePaths e.inputs
  let inputs : Text := [' '].intercalate words
  return "build " ++ output ++ ": " ++ linkRule ++
    (if inputs.isEmpty then [] else ' ' :: inputs) ++ "\n"

/-- The lines of edges, up to the first that cannot be written. -/
def edgeLines {α : Type} (line : α → Except RenderError Text) : List α → Except RenderError Text
  | [] => .ok []
  | e :: es => do
    let first ← line e
    let rest ← edgeLines line es
    return first ++ rest

/-- An empty line after a block that has statements. -/
def blockEnd {α : Type} : List α → Text
  | [] => []
  | _ :: _ => "\n"

/-- The text of the build file for a plan. -/
def render (p : Plan) (c : FlagConfig) : Except RenderError Text := do
  let compile := compileCommand c
  let link := linkCommand c
  ensureSingleLine compileRule compile
  ensureSingleLine linkRule link
  let compileBlock ← edgeLines compileLine p.compileEdges
  let linkBlock ← edgeLines linkLine p.linkEdges
  let target ← escapePath p.defaultTarget
  return ruleLines compile link ++ compileBlock ++ blockEnd p.compileEdges ++ linkBlock ++
    blockEnd p.linkEdges ++ "default " ++ target ++ "\n"

end NinjaPlan.BuildFile
