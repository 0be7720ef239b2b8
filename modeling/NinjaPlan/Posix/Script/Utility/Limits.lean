import NinjaPlan.Posix.Script.Utility.Basic

/-! # Limits

The utility `ulimit` shows and sets how much of something a process may use: a soft limit, which
holds, and a hard one, up to which the soft one may be raised.  The limits are only shown. -/

namespace NinjaPlan.Script.Utility

/-- Something of which a process may use only so much. -/
structure Resource where
  letter : Char
  /-- What a list of the limits calls it. -/
  name : String
  /-- The number of units in which it is counted that a number in the script stands for. -/
  factor : Nat
  /-- The limits before any is set. -/
  usual : Limit := {}

/-- What is limited, in the order in which it is listed. -/
def resources : List Resource := [
  { letter := 't', name := "time(seconds)", factor := 1 },
  { letter := 'f', name := "file(blocks)", factor := 512 },
  { letter := 'd', name := "data(kbytes)", factor := 1024 },
  { letter := 's', name := "stack(kbytes)", factor := 1024, usual := { soft := some 8388608 } },
  { letter := 'c', name := "coredump(blocks)", factor := 512 },
  { letter := 'm', name := "memory(kbytes)", factor := 1024 },
  { letter := 'l', name := "locked memory(kbytes)", factor := 1024,
    usual := { soft := some 8388608, hard := some 8388608 } },
  { letter := 'p', name := "process", factor := 1 },
  { letter := 'n', name := "nofiles", factor := 1,
    usual := { soft := some 1048576, hard := some 1048576 } },
  { letter := 'v', name := "vmemory(kbytes)", factor := 1024 },
  { letter := 'w', name := "locks", factor := 1 },
  { letter := 'r', name := "rtprio", factor := 1, usual := { soft := some 0, hard := some 0 } }]

def limitOf (r : Resource) : Act Limit := return ((← get).limits.lookup r.letter).getD r.usual

/-- How a limit is shown. -/
def showLimit (r : Resource) (l : Limit) (hard : Bool) : Text :=
  match if hard then l.hard else l.soft with
  | none => "unlimited\n"
  | some n => Text.ofNat (n / r.factor) ++ ['\n']

def showLimits (hard : Bool) : Act Text := do
  let lines ← resources.mapM fun r => do
    let name := r.name.toList
    return name ++ List.replicate (20 - name.length) ' ' ++ ' ' :: showLimit r (← limitOf r) hard
  return lines.flatten

/-- The limit that a word spells, in the units of a resource. -/
def readLimit (r : Resource) (word : Text) : Act (Option Nat) := do
  if word = "unlimited" then return none
  else if word.all Char.isDigit then return some (Number.ofDigits 10 word * r.factor)
  else Act.fail "bad number"

/-- Whether the first limit is within the second. -/
def within : Option Nat → Option Nat → Bool
  | _, none => true
  | none, some _ => false
  | some a, some b => a ≤ b

/-- Shows or sets a limit. -/
def ulimit : Utility := fun arguments => do
  let o ← Options.read ("HSa" ++ resources.map Resource.letter) arguments
  let side := o.found.reverse.find? fun f => f.1 == 'H' || f.1 == 'S'
  let hard := side.map Prod.fst == some 'H'
  let letter := ((o.found.reverse.map Prod.fst).find? fun c => !"HSa".toList.contains c).getD 'f'
  let other : Resource := { letter := letter, name := "", factor := 1 }
  let r := (resources.find? fun r => r.letter == letter).getD other
  match o.rest with
  | [] =>
    if o.has 'a' then Act.print (← showLimits hard)
    else Act.print (showLimit r (← limitOf r) hard)
  | word :: more =>
    if o.has 'a' || !more.isEmpty then
      let _ ← Act.fail (α := Unit) "too many arguments"
    let value ← readLimit r word
    let before ← limitOf r
    let after : Limit := {
      soft := if side.isNone || !hard then value else before.soft
      hard := if side.isNone || hard then value else before.hard }
    if !within after.soft after.hard then
      let _ ← Act.fail (α := Unit) "error setting limit (Invalid argument)"
    modify fun s => { s with limits := (letter, after) :: s.limits }
    return 0

end NinjaPlan.Script.Utility
