import NinjaPlan.Posix.Script.Lookup
import NinjaPlan.Posix.Script.Reader
import NinjaPlan.Posix.Script.Utility.Basic

/-! # What names stand for

The utilities `alias`, `unalias`, `type` and `hash`, and the part of `command` that describes. -/

namespace NinjaPlan.Script.Utility

/-- The number of buckets of the table of aliases. -/
def aliasBuckets : Nat := 39

/-- The number of buckets of the table of programs. -/
def programBuckets : Nat := 31

/-- An alias as a script would set it. -/
def showAlias (name text : Text) : Text := name ++ '=' :: singleQuoted text ++ ['\n']

/-- Sets or shows an alias, after those that had a status. -/
def aliasOne (argument : Text) (status : Nat) : Act Nat := do
  let name := argument.takeWhile (· != '=')
  if name.length < argument.length ∧ name ≠ [] then
    modify fun s =>
      { s with
        aliases := s.aliases.filter (·.1 != name) ++ [(name, argument.drop (name.length + 1))] }
    return status
  else
    match (← get).aliases.lookup argument with
    | some text => return max status (← Act.print (showAlias argument text))
    | none =>
      Act.os (Process.warn ("alias: " ++ argument ++ " not found"))
      return 1

def setAliases : Utility := fun arguments => do
  if arguments.isEmpty then
    Act.print ((Lookup.listed aliasBuckets (← get).aliases).flatMap fun (n, t) => showAlias n t)
  else arguments.foldlM (fun status a => aliasOne a status) 0

/-- Takes an alias away, after those that had a status. -/
def unaliasOne (name : Text) (status : Nat) : Act Nat := do
  if ((← get).aliases.lookup name).isSome then
    modify fun s => { s with aliases := s.aliases.filter (·.1 != name) }
    return status
  else
    Act.os (Process.warn ("unalias: " ++ name ++ " not found"))
    return 1

/-- Takes aliases away. -/
def unalias : Utility := fun arguments => do
  let o ← Options.read "a" arguments
  if o.has 'a' then
    modify fun s => { s with aliases := [] }
    return 0
  else o.rest.foldlM (fun status a => unaliasOne a status) 0

/-- What a name stands for, with the program in the standard search path if wanted. -/
def meaningOf (standard : Bool) (name : Text) : Act Meaning := do
  if !standard ∨ name.contains '/' then Lookup.meaning name
  else
    match UtilityTraits.ofName? name with
    | some traits => return .utility traits
    | none => Lookup.program Lookup.standardPath name

/-- Describes what a name stands for; in short only tells how to call it. -/
def describe (standard verbose : Bool) (name : Text) : Act Nat := do
  let tell (long short : Text) : Act Nat :=
    Act.print ((if verbose then name ++ long else short) ++ ['\n'])
  let missing : Act Nat := do
    if verbose then let _ ← Act.print (name ++ ": not found\n")
    return 127
  if (Keyword.ofText? name).isSome then tell " is a shell keyword" name
  else
    match (← get).aliases.lookup name with
    | some text => tell (" is an alias for " ++ text) ("alias " ++ name ++ '=' :: singleQuoted text)
    | none =>
      match ← meaningOf standard name with
      | .routine _ => tell " is a shell function" name
      | .utility traits =>
        tell (if traits.special then " is a special shell builtin" else " is a shell builtin") name
      | .program path tracked =>
        if name.contains '/' then
          let t ← Act.os Process.tree
          let here ← Act.os Process.directory
          match t.entryAt here (Octets.toBytes path) with
          | .ok _ => tell (" is " ++ path) path
          | .error _ => missing
        else tell ((if tracked then " is a tracked alias for " else " is ") ++ path) path
      | .nothing _ => missing

/-- Describes what names stand for. -/
def type : Utility := fun arguments => do
  let o ← Options.read [] arguments
  o.rest.foldlM (fun status name => return max status (← describe false true name)) 0

/-- Describes what the first of some names stands for. -/
def describeCommand : Utility := fun arguments => do
  let o ← Options.read "pvV" arguments
  match o.rest with
  | [] => return 0
  | name :: _ =>
    if o.has 'v' ∨ o.has 'V' then describe (o.has 'p') (o.has 'V') name else return 0

/-- Keeps in mind where a program is, after those that had a status. -/
def hashOne (name : Text) (status : Nat) : Act Nat := do
  modify fun s => { s with tracked := s.tracked.filter (·.1 != name) }
  match ← Lookup.meaning name with
  | .program path _ =>
    if !name.contains '/' then Lookup.track name path
    return status
  | .nothing e =>
    Act.complain (name ++ ": " ++ Lookup.describe e)
    return 1
  | _ => return status

/-- Keeps in mind where programs are, or shows what is kept. -/
def hash : Utility := fun arguments => do
  let o ← Options.read "r" arguments
  if o.has 'r' then
    modify fun s => { s with tracked := [] }
    return 0
  else if o.rest.isEmpty then
    let known := Lookup.listed programBuckets (← get).tracked.reverse
    Act.print (known.flatMap fun (_, path) => path ++ ['\n'])
  else o.rest.foldlM (fun status name => hashOne name status) 0

/-- Shows how long the shell and its children have run, which takes no time. -/
def times : Utility := fun _ =>
  Act.print "0m0.000000s 0m0.000000s\n0m0.000000s 0m0.000000s\n"

end NinjaPlan.Script.Utility
