import NinjaPlan.Path.Basic

/-! # Normal paths

`normalize` resolves `.` and `..` on the text alone: a `..` takes back the name before it,
vanishes at the root and stays where there is nothing to take back.  What a path means without
looking at any disk is its effect on a stack of directory names, `applyTo`. -/

namespace NinjaPlan.Path

/-! ### Normal form -/

/-- Adds a component to those of a normal path, which are given last first. -/
def pushNormal : List Component → Component → List Component
  | above, .current => above
  | .normal _ :: above, .parent => above
  | .root :: above, .parent => .root :: above
  | above, c => c :: above

/-- The components of the normal form. -/
def normalComponents (p : Path) : List Component := (p.components.foldl pushNormal []).reverse

/-- The path that consists of the given components. -/
def ofComponents : List Component → Path
  | .root :: rest => ⟨'/' :: joinSegments (rest.map Component.text)⟩
  | components => ⟨joinSegments (components.map Component.text)⟩

/-- The path with `.` and `..` resolved as far as the text alone allows. -/
def normalize (p : Path) : Path := ofComponents p.normalComponents

/-! ### Meaning -/

/-- The effect of a component on the names of the directory stood in, innermost first. -/
def Component.applyTo : Component → List Text → List Text
  | root, _ => []
  | current, stack => stack
  | parent, stack => stack.tail
  | normal name, stack => name :: stack

/-- Where a path leads from a directory, both given by their names, innermost first. -/
def applyTo (p : Path) (stack : List Text) : List Text :=
  p.components.foldl (fun s c => c.applyTo s) stack

end NinjaPlan.Path
