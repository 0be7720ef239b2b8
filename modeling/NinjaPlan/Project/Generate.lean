import NinjaPlan.BuildFile.Render
import NinjaPlan.Files.Replace
import NinjaPlan.Listing
import NinjaPlan.Plan.Assemble
import NinjaPlan.Project.Event
import NinjaPlan.Project.Layout

/-! # From a project to its build file

Flags are resolved first, then the sources of every target are found, then the plan is assembled
and written down.  Each stage puts its own error before that of its cause. -/

namespace NinjaPlan

/-- Why a project's root is not accepted. -/
inductive RootError where
  | notDirectory (path : Path)
  /-- The canonical path of the root cannot be had. -/
  | notCanonical (path : Path) (cause : IoError)
  /-- The canonical path of the root, whose bytes are given, is not UTF-8. -/
  | notUtf8 (path : Bytes)
deriving DecidableEq

/-- The messages of the error and of its causes, outermost first. -/
def RootError.chain : RootError → List Text
  | notDirectory path => ["project root " ++ path.text ++ " is not a directory"]
  | notCanonical path cause => ["canonicalising " ++ path.text, cause.message]
  | notUtf8 path => ["project root " ++ Utf8.decodeLossy path ++ " is not valid UTF-8"]

/-- The code under which the user finds help on the error. -/
def RootError.code : RootError → Option Text
  | notDirectory _ => some "ninjaconf::runner::root_not_directory"
  | notCanonical .. => none
  | notUtf8 _ => some "ninjaconf::runner::root_not_utf8"

/-- What the user can do about the error. -/
def RootError.help : RootError → Option Text
  | notDirectory _ =>
    some ("pass an existing project directory with --root, " ++
      "or run from inside the project").toList
  | notCanonical .. => none
  | notUtf8 _ => some "move the project to a directory whose path is valid UTF-8"

/-- The part of printing that failed. -/
inductive PrintStage where
  | write
  | flush
deriving DecidableEq

/-- Why a run failed. -/
inductive RunError where
  | root (cause : RootError)
  | flags (cause : FlagError)
  | listing (subdir : Path) (cause : ListingError)
  | plan (cause : PlanError)
  | render (cause : BuildFile.RenderError)
  | write (path : Path) (cause : FileTree.ReplaceError)
  | print (stage : PrintStage) (cause : IoError)
deriving DecidableEq

/-- The messages of the error and of its causes, outermost first. -/
def RunError.chain : RunError → List Text
  | root cause => "locating project root" :: cause.chain
  | flags cause => "resolving toolchain flags" :: cause.chain
  | listing subdir cause => ("discovering sources in " ++ subdir.text) :: cause.chain
  | plan cause => ["assembling build graph", cause.message]
  | render cause => ["rendering Ninja file", cause.message]
  | write path cause => ("writing " ++ path.text) :: cause.chain
  | print .write cause => ["write Ninja file to stdout", cause.message]
  | print .flush cause => ["flush stdout", cause.message]

def joinChain (messages : List Text) : Text := (": " : Text).intercalate messages

/-- A result with the events that led to it. -/
structure Logged (ε α : Type) where
  events : List Event
  result : Except ε α

namespace Logged

variable {ε α β : Type}

/-- A result without events. -/
def ofExcept (r : Except ε α) : Logged ε α := ⟨[], r⟩

/-- Goes on with the value of a result, if it has one. -/
def bind (x : Logged ε α) (f : α → Logged ε β) : Logged ε β :=
  match x.result with
  | .error e => ⟨x.events, .error e⟩
  | .ok a => ⟨x.events ++ (f a).events, (f a).result⟩

def tell (e : Event) : Logged ε Unit := ⟨[e], .ok ()⟩

instance instMonad : Monad (Logged ε) where
  pure a := ⟨[], .ok a⟩
  bind := bind

@[simp] theorem result_pure (a : α) : (pure a : Logged ε α).result = .ok a := rfl

@[simp] theorem result_bind (x : Logged ε α) (f : α → Logged ε β) :
    (x >>= f).result = x.result.bind fun a => (f a).result := by
  show (Logged.bind x f).result = _
  unfold Logged.bind
  split <;> simp_all [Except.bind]

end Logged

/-- Finds the sources right inside a subdirectory of a root. -/
def discover (t : FileTree) (here : Location) (root subdir : Path) (extensions : List Text) :
    Logged ListingError (List SourceFile) :=
  let dir := sourceDirectory root subdir
  match t.sources? here dir extensions with
  | none => ⟨[.directoryMissing dir], .ok []⟩
  | some (.error e) => ⟨[], .error e⟩
  | some (.ok sources) => ⟨[.sourcesFound dir sources.length], .ok sources⟩

namespace Layout

/-- Resolves the flags that the settings ask for; gives the files that the lookups leave. -/
def findFlags (l : Layout) (o : Options) (source : PackageSource) (t : FileTree) :
    Logged RunError FlagConfig × FileTree :=
  let found := (o.flagRequest l).resolve source t
  let asked := found.lookups.map Event.asked
  (match found.result with
    | .error e => ⟨asked, .error (.flags e)⟩
    | .ok c => ⟨asked ++ [.flagsResolved c, .flagsShown c], .ok c⟩, found.tree)

def findSources (l : Layout) (t : FileTree) (here : Location) (spec : TargetSpec) :
    Logged RunError Target :=
  let found := discover t here l.root spec.subdir l.extensions
  ⟨found.events, (found.result.mapError (.listing spec.subdir)).map fun sources => ⟨spec, sources⟩⟩

/-- Finds the sources of targets in order. -/
def findAll (l : Layout) (t : FileTree) (here : Location) :
    List TargetSpec → Logged RunError (List Target)
  | [] => pure []
  | spec :: rest => do
    let target ← l.findSources t here spec
    let targets ← l.findAll t here rest
    return target :: targets

def planTargets (l : Layout) (targets : List Target) : Logged RunError Plan :=
  let (reached, _) := Assembly.run l.objectMapper l.entryPoint {} targets
  let planned := reached.linkEdges.map fun e => Event.linkPlanned e.output e.inputs.length
  match Plan.assemble targets l.objectMapper l.entryPoint with
  | .error e => ⟨planned, .error (.plan e)⟩
  | .ok p => ⟨planned ++ [.planShown p], .ok p⟩

/-- The text of the project's build file, once the flags are known. -/
def describe (l : Layout) (t : FileTree) (here : Location) (config : FlagConfig) :
    Logged RunError Text := do
  let targets ← l.findAll t here l.targets
  let plan ← l.planTargets targets
  match BuildFile.render plan config with
  | .error e => .ofExcept (.error (.render e))
  | .ok text => pure text

/-- The text of the project's build file, and the files that the package lookups leave. -/
def generate (l : Layout) (o : Options) (source : PackageSource) (t : FileTree)
    (here : Location) : Logged RunError Text × FileTree :=
  let (flags, t) := l.findFlags o source t
  (flags.bind (l.describe t here), t)

end Layout
end NinjaPlan
