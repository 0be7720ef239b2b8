import NinjaPlan.Path.Basic

/-! # File names

A file name splits at its last dot into a stem and an extension.  A name without a dot, or
whose only dot comes first, is all stem.

`withExtension` first cuts the old extension off the end of the path and then writes the new one
after the stem of what is left.  The two steps differ from a replacement on one kind of name:
after `..cc` is cut to `..` there is no stem, and the path stays as it is. -/

namespace NinjaPlan.Path

/-- The stem of a file name and, if it has one, its extension. -/
def splitName (name : Text) : Text × Option Text :=
  match (Text.pieces '.' name).reverse with
  | last :: before :: rest =>
    let stem := ['.'].intercalate (before :: rest).reverse
    if stem = [] then (name, none) else (stem, some last)
  | _ => (name, none)

/-- The stem of the path's file name. -/
def fileStem (p : Path) : Option Text := p.fileName.map fun name => (splitName name).1

/-- The extension of the path's file name. -/
def extension (p : Path) : Option Text := p.fileName.bind fun name => (splitName name).2

/-- The text before the last component that is not blank, and that component's segment. -/
def lastSegment (p : Path) : Text × Text :=
  match p.segments.reverse.dropWhile blank with
  | [] => ([], [])
  | s :: above => (above.reverse.flatMap (· ++ ['/']), s)

/-- The path up to the end of its stem, followed by a dot and `ext`; a path without a file name
stays as it is. -/
def setExtension (p : Path) (ext : Text) : Path :=
  match p.fileStem with
  | none => p
  | some stem => ⟨p.lastSegment.1 ++ stem ++ '.' :: ext⟩

/-- The path with as many characters cut off its end as its extension has. -/
def cutExtension (p : Path) : Path :=
  match p.extension with
  | none => p
  | some ext => ⟨p.text.take (p.text.length - ext.length)⟩

/-- The path with its extension, if any, exchanged for `ext`. -/
def withExtension (p : Path) (ext : Text) : Path := p.cutExtension.setExtension ext

end NinjaPlan.Path
