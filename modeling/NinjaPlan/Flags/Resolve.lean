import NinjaPlan.Flags.Package
import NinjaPlan.Path.Basic
import NinjaPlan.Shell.Quote

/-! # Resolving flags

The flags of a build come from its mode, the user's overrides and the packages it uses, in
a fixed order:

* the compile override, or the common flags and those of the mode;
* every package's compiler flags;
* for linking, the link override or a copy of the flags so far, then every package's linker
  flags;
* for compiling, the flags that ask for a dependency file.

Text from the disk or from a package ends up inside a Ninja command, so a path is quoted for the
shell and every `$` is doubled.  Overrides and dependency-file flags are kept word for word, as
they may refer to Ninja's variables. -/

namespace NinjaPlan

inductive BuildMode where
  | debug
  | release
deriving DecidableEq, Repr, Inhabited

namespace BuildMode

/-- The flags that the mode adds to the common ones. -/
def flags : BuildMode → Text
  | debug => "-O0 -g -DDEBUG"
  | release => "-O3 -flto"

def name : BuildMode → Text
  | debug => "debug"
  | release => "release"

end BuildMode

/-- The flags of every build without a compile override, with a place for the include
directory. -/
def commonFlags : Text := "-Wall -Wextra -std=c++17 -I\x7binclude\x7d -fPIC"

/-- Stands in the common flags for the include directory. -/
def includePlaceholder : Text := "\x7binclude\x7d"

/-- Stands in a compile override for the project's root. -/
def rootPlaceholder : Text := "\x7broot\x7d"

/-- The flags that ask for a dependency file next to the object. -/
def defaultDepFlags : Text := "-MMD -MF $out.d"

/-- What the user asks of the tools. -/
structure FlagRequest where
  mode : BuildMode := .debug
  compiler : Text
  linker : Text
  /-- Takes the place of the common flags and the mode's; an empty text counts as given. -/
  compileOverride : Option Text := none
  /-- Takes the place of the copy of the compiler flags; an empty text counts as given. -/
  linkOverride : Option Text := none
  depFlags : Text := defaultDepFlags
  root : Path
  /-- The directory of headers, below the root. -/
  includeDir : Text
  packages : List Text := []
deriving DecidableEq

/-- How the compiler and the linker are called. -/
structure FlagConfig where
  compiler : Text
  linker : Text
  /-- Flags for compiling, those for the dependency file included. -/
  compileFlags : Text
  linkFlags : Text
  depFlags : Text
  mode : BuildMode
deriving DecidableEq

/-- Why flags could not be resolved. -/
inductive FlagError where
  /-- A lookup failed. -/
  | lookup (package : Text) (kind : FlagKind) (cause : LookupError)
  /-- The root holds a NUL, or the include directory does. -/
  | unquotableRoot (root : Path)
deriving DecidableEq

/-- The messages of the error and of its causes, outermost first. -/
def FlagError.chain : FlagError → List Text
  | lookup package kind cause =>
    ("querying " ++ kind.name ++ " for package '" ++ package ++ "' failed") :: cause.chain
  | unquotableRoot root => ["project root '" ++ root.text ++ "' cannot be quoted for the shell"]

/-! ### Composing flags -/

/-- Adds a segment, trimmed and after a space, unless it is blank; the first segment gets no
space. -/
def appendSegment (flags segment : Text) : Text :=
  let segment := Text.trim segment
  if segment.isEmpty then flags
  else if flags.isEmpty then segment
  else flags ++ ' ' :: segment

/-- Adds segments in their order. -/
def appendSegments (flags : Text) (segments : List Text) : Text :=
  segments.foldl appendSegment flags

namespace FlagRequest

/-- A path as one shell word inside a Ninja value. -/
def quotePath (r : FlagRequest) (path : Text) : Except FlagError Text :=
  match Shell.quoteWord? path with
  | some word => .ok (Text.double '$' word)
  | none => .error (.unquotableRoot r.root)

/-- The text of the directory in which the compiler looks for headers. -/
def includePath (r : FlagRequest) : Text := r.root.text ++ '/' :: r.includeDir

/-- The flags that stand before those of the packages. -/
def baseFlags (r : FlagRequest) : Except FlagError Text :=
  match r.compileOverride with
  | none => do
    let dir ← r.quotePath r.includePath
    return appendSegment (Text.replaceAll includePlaceholder dir commonFlags) r.mode.flags
  | some flags => do
    let root ← r.quotePath r.root.text
    return Text.replaceAll rootPlaceholder root flags

end FlagRequest

/-! ### Lookups -/

/-- What comes of asking packages. -/
structure Asked (α : Type) where
  /-- The lookups made, a failed one included. -/
  lookups : List Lookup
  result : Except FlagError α
  /-- The files that the lookups leave. -/
  tree : FileTree

/-- Asks for the flags of one kind of each package in turn, up to the first failure. -/
def askAll (source : PackageSource) (kind : FlagKind) :
    FileTree → List Text → Asked (List Text)
  | t, [] => ⟨[], .ok [], t⟩
  | t, p :: ps =>
    match source t p kind with
    | (.error e, t) => ⟨[(p, kind)], .error (.lookup p kind e), t⟩
    | (.ok flags, t) =>
      let rest := askAll source kind t ps
      ⟨(p, kind) :: rest.lookups, rest.result.map (flags :: ·), rest.tree⟩

def FlagRequest.configure (r : FlagRequest) (base : Text) (cflags libs : List Text) :
    FlagConfig :=
  let compile := appendSegments base (cflags.map (Text.double '$'))
  { compiler := r.compiler
    linker := r.linker
    compileFlags := appendSegment compile r.depFlags
    linkFlags := appendSegments (r.linkOverride.getD compile) (libs.map (Text.double '$'))
    depFlags := r.depFlags
    mode := r.mode }

def FlagRequest.resolve (r : FlagRequest) (source : PackageSource) (t : FileTree) :
    Asked FlagConfig :=
  match r.baseFlags with
  | .error e => ⟨[], .error e, t⟩
  | .ok base =>
    let first := askAll source .cflags t r.packages
    match first.result with
    | .error e => { first with result := .error e }
    | .ok cflags =>
      let second := askAll source .libs first.tree r.packages
      { lookups := first.lookups ++ second.lookups
        result := second.result.map (r.configure base cflags)
        tree := second.tree }

end NinjaPlan
