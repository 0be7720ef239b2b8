import NinjaPlan.Source
import NinjaPlan.Text.Json

/-! # Build plans

A plan says what to build without saying how it is written down: one edge for every source to
compile, one edge for every target to link, and the target built by default. -/

namespace NinjaPlan

inductive TargetKind where
  /-- The target is built for its own sake; the first such target is the default. -/
  | primary
  /-- The target also links the objects of the target it reuses, but for the entry point. -/
  | secondary (reuses : Path)
deriving DecidableEq

/-- A target: its file, the directory of its sources and its kind. -/
structure TargetSpec where
  name : Path
  subdir : Path
  kind : TargetKind
deriving DecidableEq

/-- A target with the sources found for it. -/
structure Target where
  spec : TargetSpec
  sources : List SourceFile
deriving DecidableEq

/-- A source to compile. -/
structure CompileEdge where
  source : Path
  object : Path
deriving DecidableEq

/-- A file to link. -/
structure LinkEdge where
  output : Path
  inputs : List Path
deriving DecidableEq

/-- A build plan. -/
structure Plan where
  compileEdges : List CompileEdge
  linkEdges : List LinkEdge
  defaultTarget : Path
deriving DecidableEq

namespace Plan

def linkEdge (p : Plan) (output : Path) : Option LinkEdge :=
  p.linkEdges.find? fun e => e.output ≈ output

def compileEdge (p : Plan) (object : Path) : Option CompileEdge :=
  p.compileEdges.find? fun e => e.object ≈ object

/-- The plan as shown in the log. -/
def toJson (p : Plan) : Json :=
  .object [
    ("compile_edges", .array (p.compileEdges.map fun e =>
      .object [("source", .string e.source.text), ("object", .string e.object.text)])),
    ("link_edges", .array (p.linkEdges.map fun e =>
      .object [("output", .string e.output.text),
        ("inputs", .array (e.inputs.map fun i => .string i.text))])),
    ("default_target", .string p.defaultTarget.text)]

end Plan

/-- Why targets make no plan. -/
inductive PlanError where
  | duplicateOutput (object first second : Path)
  | unmapped (cause : MapError)
  | duplicateTarget (target : Path)
  | unknownTarget (target reused : Path)
  | targetShadowsObject (target : Path)
  | noPrimaryTarget
deriving DecidableEq

def PlanError.message : PlanError → Text
  | duplicateOutput object first second =>
    "sources " ++ first.text ++ " and " ++ second.text ++ " both produce object " ++ object.text
  | unmapped cause => cause.message
  | duplicateTarget target => "target " ++ target.text ++ " is declared more than once"
  | unknownTarget target reused =>
    "target " ++ target.text ++ " reuses unknown target " ++ reused.text
  | targetShadowsObject target =>
    "target " ++ target.text ++ " has the same path as an object file"
  | noPrimaryTarget => "no primary target was requested"

end NinjaPlan
