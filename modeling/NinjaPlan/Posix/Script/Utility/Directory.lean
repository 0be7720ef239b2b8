import NinjaPlan.Posix.Files.Mode
import NinjaPlan.Posix.Script.Utility.Basic

/-! # The directory of a shell

A shell knows the path by which it came to its directory; the utilities `cd` and `pwd` go by it.
`umask` is here as well. -/

namespace NinjaPlan.Script.Utility

/-- The path of a directory without dots, as it is come to from another; links play no part. -/
def logicalPath (from_ path : Text) : Text :=
  let absolute := path.head? == some '/'
  let start := if absolute then path else from_
  let root : Text := match start with
    | '/' :: '/' :: '/' :: _ => ['/']
    | '/' :: '/' :: _ => ['/', '/']
    | _ => ['/']
  let parts := Text.pieces '/' (if absolute then path else from_ ++ '/' :: path)
  let names := parts.foldl (fun (names : List Text) part =>
    if part = [] ∨ part = ['.'] then names
    else if part = ['.', '.'] then names.drop 1
    else part :: names) []
  root ++ ['/'].intercalate names.reverse

/-- The path of the directory that a process is in, without links. -/
def physicalPath (loc : Location) : Text := Octets.ofBytes (Location.path loc)

/-- Goes to a directory; tells whether that is possible. -/
def goTo (physical : Bool) (path : Text) : Act Bool := do
  let s ← get
  let wanted := if physical ∨ s.path.isEmpty then path else logicalPath s.path path
  let t ← Act.os Process.tree
  let here ← Act.os Process.directory
  match t.directoryAt here (Octets.toBytes wanted) with
  | none => return false
  | some loc =>
    Act.os (Process.changeSelf fun p => { p with directory := loc })
    let path := if physical ∨ s.path.isEmpty then physicalPath loc else wanted
    Act.assign "OLDPWD" s.path true
    modify fun s => { s with path := path }
    Act.assign "PWD" path true
    return true

/-- Whether a path starts with a dot or two that are names of their own. -/
def startsWithDots (path : Text) : Bool :=
  [['.'], ['.', '.']].contains (path.takeWhile (· != '/'))

/-- The path of a name in the directories of a search path, and whether it is to be told. -/
def searchDirectory (t : FileTree) (here : Location) (name : Text) :
    List Text → Option (Text × Bool)
  | [] => none
  | dir :: dirs =>
    let path := if dir.isEmpty then name else dir ++ '/' :: name
    if (t.directoryAt here (Octets.toBytes path)).isSome then some (path, !dir.isEmpty)
    else searchDirectory t here name dirs

/-- Goes to a directory. -/
def cd : Utility := fun arguments => do
  let o ← Options.read "LP" arguments
  let physical := o.found.getLast?.any fun f => f.1 == 'P'
  let (name, told) ← match o.rest with
    | [] => pure ((← Act.value? "HOME").getD [], false)
    | ['-'] :: _ => pure ((← Act.value? "OLDPWD").getD [], true)
    | name :: _ => pure (name, false)
  let searches := name.head? != some '/' && !startsWithDots name
  let name := if name.isEmpty then ['.'] else name
  let (path, told) ← match searches, ← Act.value? "CDPATH" with
    | true, some directories =>
      match searchDirectory (← Act.os Process.tree) (← Act.os Process.directory) name
          (Text.pieces ':' directories) with
      | some (path, tells) => pure (path, told || tells)
      | none => pure (name, told)
    | _, _ => pure (name, told)
  if ← goTo physical path then
    if told then Act.print ((← get).path ++ ['\n']) else return 0
  else Act.fail ("can't cd to " ++ name)

/-- Prints the path of the directory. -/
def pwd : Utility := fun arguments => do
  let o ← Options.read "LP" arguments
  if o.found.getLast?.any fun f => f.1 == 'P' then
    Act.print (physicalPath (← Act.os Process.directory) ++ ['\n'])
  else Act.print ((← get).path ++ ['\n'])

/-- Shows or changes the permissions that new files are not given. -/
def umask : Utility := fun arguments => do
  let o ← Options.read "S" arguments
  let mask := (← get).mask
  match o.rest with
  | [] =>
    if o.has 'S' then
      Act.print (Permissions.symbolic (Permissions.without Permissions.every mask) ++ ['\n'])
    else
      let digits := Permissions.octal mask
      Act.print (List.replicate (4 - digits.length) '0' ++ digits ++ ['\n'])
  | mode :: _ =>
    if mode.head?.any Char.isDigit then
      if mode.all fun c => Number.digitValue c < 8 then
        modify fun s => { s with mask := Number.ofDigits 8 mode % 512 }
        return 0
      else Act.fail ("Illegal number: " ++ mode)
    else
      match Permissions.change? 0 false (Permissions.without Permissions.every mask) mode with
      | some p =>
        modify fun s => { s with mask := Permissions.without Permissions.every p }
        return 0
      | none => Act.fail ("Illegal mode: " ++ mode)

end NinjaPlan.Script.Utility
