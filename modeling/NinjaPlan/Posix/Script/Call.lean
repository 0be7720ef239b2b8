import NinjaPlan.Posix.Script.Control

/-! # What a command line calls

The words of a command line become fields, of which the first names a function, a utility or a
program.  The utility `command` only calls another command, as if there were no functions. -/

namespace NinjaPlan.Script

/-- What a command line calls. -/
structure Call where
  /-- The name and the arguments. -/
  fields : List Text
  meaning : Meaning := .utility {}
  /-- Whether faults of the command end the shell. -/
  special : Bool := false
  /-- Whether assignments only hold for the command. -/
  transient : Bool := false
  /-- Where programs are looked for, if not where the shell does. -/
  searchPath : Option Text := none

namespace Call

/-- How the utility that calls other commands is called. -/
def callerName : Text := "command"

/-- What the arguments of that utility call, and whether the standard search path is meant;
nothing if there is none, or if it is to be described. -/
def called? (standard : Bool) : List Text → Option (Bool × List Text)
  | [] => none
  | ['-', '-'] :: rest => if rest.isEmpty then none else some (standard, rest)
  | ('-' :: c :: letters) :: rest =>
    if (c :: letters).all (· == 'p') then called? true rest else none
  | fields => some (standard, fields)

/-- Whether the arguments of a command may be assignments. -/
def assigns : List Text → Bool
  | [] => false
  | name :: rest =>
    if name = callerName then
      match called? false rest with
      | some (_, called :: _) => UtilityTraits.assigningNames.contains called
      | _ => false
    else UtilityTraits.assigningNames.contains name

/-- The fields of the first words that stand for any, and the words behind them. -/
def firstFields (capture : Act.Capture) : List Word → Act (List Text × List Word)
  | [] => return ([], [])
  | w :: rest => do
    match ← Act.fieldsOf capture w with
    | [] => firstFields capture rest
    | found => return (found, rest)

/-- The fields of arguments; those that assign are not cut where the command makes assignments. -/
def argumentsOf (capture : Act.Capture) (assigning : Bool) : List Word → Act (List Text)
  | [] => return []
  | w :: rest => do
    let first ← if assigning && (assignment? w).isSome then
        pure [← Act.textOf capture { tilde := true, tildes := true } w]
      else Act.fieldsOf capture w
    return first ++ (← argumentsOf capture assigning rest)

/-- The fields of a command line. -/
def fieldsOf (capture : Act.Capture) (words : List Word) : Act (List Text) := do
  let (first, rest) ← firstFields capture words
  let assigning := assigns (first ++ rest.map fun w => (plainText? w).getD [])
  return first ++ (← argumentsOf capture assigning rest)

/-- What a name stands for, functions aside. -/
def directMeaning (searchPath : Option Text) (name : Text) : Act Meaning := do
  match if name.contains '/' then none else UtilityTraits.ofName? name, searchPath with
  | some traits, _ => return .utility traits
  | none, some path =>
    if name.contains '/' then return .program name false else Lookup.program path name
  | none, none =>
    match ← Lookup.meaning name with
    | .routine _ => Lookup.program (← Lookup.searchPath) name
    | meaning => return meaning

/-- What fields call behind the utility that calls commands; the number bounds how often it calls
itself. -/
def calledBy : Nat → Bool → List Text → Act Call
  | 0, _, fields => return { fields := fields }
  | _, _, [] => return { fields := [] }
  | fuel + 1, standard, name :: rest => do
    let searchPath := if standard then some Lookup.standardPath else none
    let call : Call := { fields := name :: rest, transient := true, searchPath := searchPath }
    match if name = callerName then called? standard rest else none with
    | some (standard, called) => calledBy fuel standard called
    | none => return { call with meaning := ← directMeaning searchPath name }

def ofFields (fields : List Text) : Act Call := do
  match fields with
  | [] => return { fields := [] }
  | name :: rest =>
    let meaning ← Lookup.meaning name
    match meaning with
    | .utility traits =>
      match if name = callerName then called? false rest else none with
      | some (standard, called) => calledBy (rest.length + 1) standard called
      | none =>
        return { fields := fields, meaning := meaning, special := traits.special
                 transient := !traits.special }
    | _ => return { fields := fields, meaning := meaning, transient := true }

end Call
end NinjaPlan.Script
