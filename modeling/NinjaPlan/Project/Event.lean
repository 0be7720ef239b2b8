import NinjaPlan.Files.Access
import NinjaPlan.Flags.Resolve
import NinjaPlan.Plan.Basic

/-! # What a run reports

The events of a run, in the order in which they happen, and the records that a log makes of
them. -/

namespace NinjaPlan

/-- Something worth a record in the log. -/
inductive Event where
  /-- A package's flags are asked for. -/
  | asked (lookup : Lookup)
  | flagsResolved (config : FlagConfig)
  | flagsShown (config : FlagConfig)
  | directoryMissing (dir : Path)
  | sourcesFound (dir : Path) (count : Nat)
  | linkPlanned (target : Path) (inputs : Nat)
  | planShown (plan : Plan)
  | fileWritten (path : Path)

/-- How much a record matters. -/
inductive Level where
  | debug
  | info
  | warn

def Level.name : Level → Text
  | debug => "DEBUG"
  | info => "INFO"
  | warn => "WARN"

/-- A record in the log: a message and named fields. -/
structure Record where
  level : Level
  message : Text
  fields : List (Text × Text) := []

/-- The configuration as shown in the log. -/
def FlagConfig.toJson (c : FlagConfig) : Json :=
  .object [("compiler", .string c.compiler), ("linker", .string c.linker),
    ("compile_flags", .string c.compileFlags), ("link_flags", .string c.linkFlags),
    ("dep_flags", .string c.depFlags), ("mode", .string c.mode.name)]

namespace Event

/-- The lookup that an event tells of. -/
def lookup? : Event → Option Lookup
  | asked l => some l
  | _ => none

/-- The record of an event.  A lookup leaves one only if a program is asked. -/
def record? (program : Option Text) : Event → Option Record
  | asked (package, kind) =>
    program.map fun p =>
      ⟨.debug, "querying package metadata",
        [("program", p), ("package", package), ("mode", kind.name)]⟩
  | flagsResolved c =>
    some ⟨.debug, "resolved toolchain",
      [("mode", c.mode.name), ("compile_flags", c.compileFlags), ("link_flags", c.linkFlags)]⟩
  | flagsShown c => some ⟨.debug, "Toolchain:\n" ++ c.toJson.pretty, []⟩
  | directoryMissing dir =>
    some ⟨.warn, "source directory not found; no sources discovered", [("dir", dir.text)]⟩
  | sourcesFound dir count =>
    some ⟨.debug, "discovered sources", [("dir", dir.text), ("count", Text.ofNat count)]⟩
  | linkPlanned target inputs =>
    some ⟨.debug, "registered link edge",
      [("target", target.text), ("inputs", Text.ofNat inputs)]⟩
  | planShown plan => some ⟨.debug, "Graph:\n" ++ plan.toJson.pretty, []⟩
  | fileWritten path => some ⟨.info, "Wrote Ninja file to " ++ path.text, []⟩

end Event
end NinjaPlan
