import NinjaPlan.BuildFile.Render

/-! # Reading a build file

A reader of the statements that a build file holds, one a line: rules, the bindings indented
below them, builds and defaults.  It knows nothing of how the file was written, only the form of
a statement and how a path is spelled in one.

A `PathSyntax` says which characters a `$` may stand before and which characters end a path. -/

namespace NinjaPlan.BuildFile

/-- How paths are spelled in statements. -/
structure PathSyntax where
  /-- Whether a dollar sign before the character makes it part of the path. -/
  escapes : Char → Bool
  /-- Whether the character ends a path. -/
  ends : Char → Bool
  /-- Whether a path may be empty. -/
  allowsEmpty : Bool

/-- A dollar sign before any character makes it part of the path, which ends at a space, a colon
or the end of the line. -/
def PathSyntax.lenient : PathSyntax where
  escapes _ := true
  ends c := c == ' ' || c == ':'
  allowsEmpty := true

/-- The path syntax of Ninja's manual: a dollar sign may stand before itself, a space and a colon;
a pipe ends a path too, and a path is not empty. -/
def PathSyntax.documented : PathSyntax where
  escapes c := c == '$' || c == ' ' || c == ':'
  ends c := c == ' ' || c == ':' || c == '|'
  allowsEmpty := false

/-- A statement of a build file. -/
inductive Statement where
  | rule (name : Text)
  /-- A variable of the rule above. -/
  | binding (name value : Text)
  | build (output rule : Text) (inputs : List Text)
  | defaults (targets : List Text)
deriving DecidableEq

/-! ### Paths -/

/-- The characters of a path at the front and the text after it. -/
def takePathChars (σ : PathSyntax) : Text → Option (Text × Text)
  | [] => some ([], [])
  | ['$'] => none
  | '$' :: c :: rest =>
    if σ.escapes c then (takePathChars σ rest).map fun (path, after) => (c :: path, after)
    else none
  | c :: rest =>
    if σ.ends c then some ([], c :: rest)
    else (takePathChars σ rest).map fun (path, after) => (c :: path, after)

/-- A path at the front and the text after it. -/
def takePath (σ : PathSyntax) (line : Text) : Option (Text × Text) :=
  match takePathChars σ line with
  | none => none
  | some (path, after) => if path.isEmpty && !σ.allowsEmpty then none else some (path, after)

/-- Paths, each after a space, up to the end of the line; at most `fuel` of them. -/
def takePaths (σ : PathSyntax) : Nat → Text → Option (List Text)
  | _, [] => some []
  | 0, _ :: _ => none
  | fuel + 1, c :: rest =>
    if c = ' ' then do
      let (path, after) ← takePath σ rest
      let paths ← takePaths σ fuel after
      return path :: paths
    else none

/-! ### Statements -/

/-- The text after a given beginning. -/
def after? (beginning line : Text) : Option Text :=
  if beginning.isPrefixOf line then some (line.drop beginning.length) else none

/-- The name at the front, up to a space, and the text from the space on. -/
def takeName (line : Text) : Text × Text :=
  (line.takeWhile (· != ' '), line.dropWhile (· != ' '))

/-- A binding behind its indentation. -/
def readBinding (line : Text) : Option Statement :=
  let (name, rest) := takeName line
  (after? " = " rest).map (.binding name)

/-- A build statement behind its keyword. -/
def readBuild (σ : PathSyntax) (line : Text) : Option Statement := do
  let (output, rest) ← takePath σ line
  let (rule, rest) := takeName (← after? ": " rest)
  let inputs ← takePaths σ rest.length rest
  return .build output rule inputs

def readLine (σ : PathSyntax) (line : Text) : Option Statement :=
  match after? "  " line, after? "rule " line, after? "build " line, after? "default" line with
  | some binding, _, _, _ => readBinding binding
  | _, some name, _, _ => some (.rule name)
  | _, _, some build, _ => readBuild σ build
  | _, _, _, some targets => (takePaths σ targets.length targets).map .defaults
  | _, _, _, _ => none

/-- The statements of the lines that are not empty; `none` if one of them is none. -/
def readLines (σ : PathSyntax) : List Text → Option (List Statement)
  | [] => some []
  | line :: lines =>
    if line = [] then readLines σ lines
    else do
      let statement ← readLine σ line
      let statements ← readLines σ lines
      return statement :: statements

/-- The statements of a build file. -/
def read (σ : PathSyntax) (file : Text) : Option (List Statement) :=
  readLines σ (Text.pieces '\n' file)

/-! ### What a plan asks for -/

/-- The statements that a plan and the flags ask for. -/
def statements (p : Plan) (c : FlagConfig) : List Statement :=
  [.rule compileRule, .binding "depfile" depfile, .binding "command" (compileCommand c),
    .rule linkRule, .binding "command" (linkCommand c)] ++
  p.compileEdges.map (fun e => .build e.object.text compileRule [e.source.text]) ++
  p.linkEdges.map (fun e => .build e.output.text linkRule (e.inputs.map Path.text)) ++
  [.defaults [p.defaultTarget.text]]

end NinjaPlan.BuildFile
