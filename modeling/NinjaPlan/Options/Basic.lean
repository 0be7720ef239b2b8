import NinjaPlan.Flags.Resolve

/-! # Options

What a command line asks for, and the switches that ask for it. -/

namespace NinjaPlan

/-- The settings of a run. -/
structure Options where
  /-- The project's root; the current directory if absent.  A root that is not UTF-8 has no settings
  here. -/
  root : Option Text := none
  release : Bool := false
  compiler : Text := "c++"
  /-- Flags that replace those of the mode. -/
  compileFlags : Option Text := none
  depFlags : Text := defaultDepFlags
  linker : Text := "c++"
  /-- Flags for linking; a copy of the compiler flags if absent. -/
  linkFlags : Option Text := none
  packages : List Text := []
  sourceDir : Text := "src"
  testDir : Text := "tests"
  name : Text := "app"
  testName : Text := "tests/run"
  /-- The file stem of the source with the program's entry point. -/
  entryPoint : Text := "main"
  extensions : List Text := ["cc".toList]
  /-- The directory of the objects; they stand beside their sources if it is absent. -/
  objectDir : Option Text := none
  /-- Print the build file instead of writing it. -/
  toStdout : Bool := false
  verbose : Bool := false
deriving DecidableEq

namespace Options

/-- The switches of a command line. -/
inductive Switch where
  | root | release | compiler | compileFlags | depFlags | linker | linkFlags | package
  | sourceDir | testDir | name | testName | entryPoint | extension | objectDir | stdout
  | verbose | help | version
deriving DecidableEq, Repr

namespace Switch

def all : List Switch :=
  [root, release, compiler, compileFlags, depFlags, linker, linkFlags, package, sourceDir,
    testDir, name, testName, entryPoint, extension, objectDir, stdout, verbose, help, version]

/-- The long name of a switch, without the dashes. -/
def long : Switch → Text
  | root => "root"
  | release => "release"
  | compiler => "cxx"
  | compileFlags => "cxxflags"
  | depFlags => "depflags"
  | linker => "ld"
  | linkFlags => "ldflags"
  | package => "pkg"
  | sourceDir => "src-dir"
  | testDir => "test-dir"
  | name => "name"
  | testName => "test-name"
  | entryPoint => "entry-point"
  | extension => "ext"
  | objectDir => "obj-dir"
  | stdout => "stdout"
  | verbose => "verbose"
  | help => "help"
  | version => "version"

def short : Switch → Option Char
  | release => some 'r'
  | compiler => some 'c'
  | compileFlags => some 'C'
  | depFlags => some 'D'
  | linker => some 'l'
  | linkFlags => some 'L'
  | package => some 'p'
  | name => some 'n'
  | verbose => some 'v'
  | help => some 'h'
  | version => some 'V'
  | _ => none

/-- What the value of a switch is called; `none` for a switch without a value. -/
def valueName : Switch → Option Text
  | root | sourceDir | testDir | objectDir => some "DIR"
  | compiler | linker => some "PROG"
  | compileFlags | depFlags | linkFlags => some "FLAGS"
  | package | name | testName => some "NAME"
  | entryPoint => some "STEM"
  | extension => some "EXT"
  | release | stdout | verbose | help | version => none

/-- Whether a separate value may start with a dash. -/
def takesDashes : Switch → Bool
  | compileFlags | depFlags | linkFlags => true
  | _ => false

/-- Whether the switch may be given several times. -/
def repeats : Switch → Bool
  | package | extension => true
  | _ => false

def takesValue (s : Switch) : Bool := s.valueName.isSome

/-- The switch as messages show it. -/
def usage (s : Switch) : Text :=
  "--" ++ s.long ++ match s.valueName with
    | none => []
    | some value => " <" ++ value ++ ">"

def ofLong? (name : Text) : Option Switch := all.find? fun s => s.long == name

def ofShort? (c : Char) : Option Switch := all.find? fun s => s.short == some c

end Switch
end Options
end NinjaPlan
