import NinjaPlan.Plan.Basic

/-! # Assembling a plan

Targets are taken in order.  Each source gets one compile edge, however many targets share it;
each target gets a link edge over its own objects followed, for a secondary target, by those
objects of the target it reuses that do not hold the entry point.  Paths are compared by their
components throughout, and the first spelling of a path is the one kept.

`Assembly.run` goes through the targets and tells how far it came; `Plan.assemble` completes the
plan with the checks that need all targets. -/

namespace NinjaPlan

structure OwnedObject where
  path : Path
  isEntryPoint : Bool
deriving DecidableEq

/-- The objects of a target, in the order of its sources. -/
structure Ownership where
  target : Path
  objects : List OwnedObject

/-- What has been assembled from the targets so far. -/
structure Assembly where
  compileEdges : List CompileEdge := []
  linkEdges : List LinkEdge := []
  owned : List Ownership := []

/-- Leaves out every path that is the same as an earlier one. -/
def distinctPaths (paths : List Path) : List Path :=
  paths.foldl (fun kept p => if kept.any (fun q => decide (q ≈ p)) then kept else kept ++ [p]) []

/-- Adds a compile edge for a mapped source unless there is one; two sources of one object are
an error. -/
def registerEdge (edges : List CompileEdge) (m : MappedSource) :
    Except PlanError (List CompileEdge) :=
  match edges.find? fun e => decide (e.object ≈ m.object) with
  | none => .ok (edges ++ [⟨m.source, m.object⟩])
  | some e =>
    if e.source ≈ m.source then .ok edges
    else .error (.duplicateOutput m.object e.source m.source)

/-- Maps sources in order and registers their compile edges; gives the edges and the objects. -/
def registerSources (mapper : ObjectMapper) (entryPoint : Text) :
    List CompileEdge → List SourceFile → Except PlanError (List CompileEdge × List OwnedObject)
  | edges, [] => .ok (edges, [])
  | edges, s :: rest =>
    match mapper.map s with
    | .error e => .error (.unmapped e)
    | .ok m =>
      match registerEdge edges m with
      | .error e => .error e
      | .ok edges =>
        match registerSources mapper entryPoint edges rest with
        | .error e => .error e
        | .ok (edges, objects) =>
          .ok (edges, ⟨m.object, s.stem = some entryPoint⟩ :: objects)

namespace Assembly

def objectsOf (a : Assembly) (target : Path) : Option (List OwnedObject) :=
  (a.owned.find? fun o => decide (o.target ≈ target)).map Ownership.objects

def reusedObjects (a : Assembly) (spec : TargetSpec) : Except PlanError (List Path) :=
  match spec.kind with
  | .primary => .ok []
  | .secondary reuses =>
    match a.objectsOf reuses with
    | none => .error (.unknownTarget spec.name reuses)
    | some objects => .ok ((objects.filter fun o => !o.isEntryPoint).map OwnedObject.path)

def step (mapper : ObjectMapper) (entryPoint : Text) (a : Assembly) (t : Target) :
    Except PlanError Assembly :=
  if (a.objectsOf t.spec.name).isSome then .error (.duplicateTarget t.spec.name)
  else
    match registerSources mapper entryPoint a.compileEdges t.sources with
    | .error e => .error e
    | .ok (edges, objects) =>
      match a.reusedObjects t.spec with
      | .error e => .error e
      | .ok reused =>
        .ok
          { compileEdges := edges
            linkEdges := a.linkEdges ++
              [⟨t.spec.name, distinctPaths (objects.map OwnedObject.path ++ reused)⟩]
            owned := a.owned ++ [⟨t.spec.name, objects⟩] }

/-- Adds targets in order, up to the first that fails. -/
def run (mapper : ObjectMapper) (entryPoint : Text) :
    Assembly → List Target → Assembly × Option PlanError
  | a, [] => (a, none)
  | a, t :: ts =>
    match a.step mapper entryPoint t with
    | .error e => (a, some e)
    | .ok b => run mapper entryPoint b ts

/-- Completes the plan: no output may be an object, and one target must be primary. -/
def finish (a : Assembly) (targets : List Target) : Except PlanError Plan :=
  match a.linkEdges.find? fun l => a.compileEdges.any fun c => decide (c.object ≈ l.output) with
  | some l => .error (.targetShadowsObject l.output)
  | none =>
    match targets.find? fun t => decide (t.spec.kind = .primary) with
    | none => .error .noPrimaryTarget
    | some t => .ok ⟨a.compileEdges, a.linkEdges, t.spec.name⟩

end Assembly

/-- The plan of the targets, in order. -/
def Plan.assemble (targets : List Target) (mapper : ObjectMapper) (entryPoint : Text) :
    Except PlanError Plan :=
  match Assembly.run mapper entryPoint {} targets with
  | (_, some e) => .error e
  | (a, none) => a.finish targets

end NinjaPlan
