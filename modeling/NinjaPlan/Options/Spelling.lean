import NinjaPlan.Options.Parse

/-! # Spelling settings

The command lines that ask for given settings.  Every switch has the list of values that the
settings hold for it (`Options.values`); a command line spells the settings if it gives each
switch these values in their order, or leaves the switch out where they are the default's.

A value may be attached to its switch or follow it, as far as no other reading is possible
(`Switch.Spelled`). -/

namespace NinjaPlan.Options

/-- The value of a switch that has none, if it is given. -/
def presence (given : Bool) : List Text := if given then [[]] else []

/-- The values that the settings hold for a switch. -/
def values (o : Options) : Switch → List Text
  | .root => o.root.toList
  | .release => presence o.release
  | .compiler => [o.compiler]
  | .compileFlags => o.compileFlags.toList
  | .depFlags => [o.depFlags]
  | .linker => [o.linker]
  | .linkFlags => o.linkFlags.toList
  | .package => o.packages
  | .sourceDir => [o.sourceDir]
  | .testDir => [o.testDir]
  | .name => [o.name]
  | .testName => [o.testName]
  | .entryPoint => [o.entryPoint]
  | .extension => o.extensions
  | .objectDir => o.objectDir.toList
  | .stdout => presence o.toStdout
  | .verbose => presence o.verbose
  | .help | .version => []

/-- Whether a value may follow the switch as an argument of its own. -/
def Switch.Separable (s : Switch) (value : Text) : Prop :=
  value = ['-'] ∨ value.head? ≠ some '-' ∨ s.takesDashes = true

/-- The ways to give a switch with a value. -/
inductive Switch.Spelled : Switch → Text → List Text → Prop where
  | longFlag {s : Switch} : s.takesValue = false → Spelled s [] ["--" ++ s.long]
  | shortFlag {s : Switch} {c : Char} : s.takesValue = false → s.short = some c →
      Spelled s [] [['-', c]]
  | longAttached {s : Switch} {value : Text} : s.takesValue = true →
      Spelled s value ["--" ++ s.long ++ '=' :: value]
  | longSeparate {s : Switch} {value : Text} : s.takesValue = true → s.Separable value →
      Spelled s value ["--" ++ s.long, value]
  | shortAttached {s : Switch} {c : Char} {value : Text} : s.takesValue = true →
      s.short = some c → value ≠ [] → value.head? ≠ some '=' →
      Spelled s value ['-' :: c :: value]
  | shortEquals {s : Switch} {c : Char} {value : Text} : s.takesValue = true →
      s.short = some c → value ≠ [] → Spelled s value ['-' :: c :: '=' :: value]
  | shortSeparate {s : Switch} {c : Char} {value : Text} : s.takesValue = true →
      s.short = some c → s.Separable value → Spelled s value [['-', c], value]

/-- A switch given with a value, and the arguments that give it. -/
structure Given where
  switch : Switch
  value : Text
  args : List Text

def valuesGiven (given : List Given) (s : Switch) : List Text :=
  (given.filter fun g => g.switch = s).map Given.value

/-- Whether the arguments spell the settings. -/
def Spells (o : Options) (args : List Text) : Prop :=
  ∃ given : List Given,
    (∀ g ∈ given, g.switch.Spelled g.value g.args) ∧
    args = given.flatMap Given.args ∧
    ∀ s, valuesGiven given s = o.values s ∨
      valuesGiven given s = [] ∧ o.values s = ({} : Options).values s

end NinjaPlan.Options
