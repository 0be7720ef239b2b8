import NinjaPlan.Posix.Script.Fields
import NinjaPlan.Posix.Script.Session

/-! # What words stand for

A word is expanded part by part, from left to right: a tilde becomes a home directory, a
parameter its value, commands their output, an expression its number.  Where the word is to
become fields, what comes from a substitution outside quotes is cut at separators and matched
with file names.

How the output of commands is had is a parameter; the fuel bounds how deep words are nested. -/

namespace NinjaPlan.Script

/-- How a word is expanded. -/
structure Manner where
  /-- The word becomes fields. -/
  cuts : Bool := false
  /-- A tilde at the start stands for a directory. -/
  tilde : Bool := false
  /-- So does one behind a colon. -/
  tildes : Bool := false
  quoted : Bool := false
  /-- The word is the argument of a substitution. -/
  inner : Bool := false

namespace Act

/-- What tells the output of commands. -/
abbrev Capture := Option Command → Act Text

/-! ### Parameters -/

/-- The home directory of the user with a name; without one, that of the variable. -/
def home? (user : Text) : Act (Option Text) := do
  if user.isEmpty then value? "HOME"
  else return if user = "root" then some "/root" else none

/-- The arguments joined by the first separator. -/
def joinedArguments : Act Text := do
  let glue : Text := match ← value? "IFS" with
    | none => [' ']
    | some s => s.take 1
  return glue.intercalate (← get).arguments

/-- The value of a parameter that is one text; `none` if it is not set. -/
def parameter? (name : Text) : Act (Option Text) := do
  let s ← get
  match name with
  | ['?'] => return some (Text.ofNat s.status)
  | ['$'] => return some (Text.ofNat s.leader)
  | ['#'] => return some (Text.ofNat s.arguments.length)
  | ['!'] => return s.lastJob.map Text.ofNat
  | ['-'] => return some (← shownFlags)
  | ['@'] | ['*'] => return some (← joinedArguments)
  | _ =>
    if name.head?.any Char.isDigit then
      match Number.ofDigits 10 name with
      | 0 => return some s.name
      | n + 1 => return s.arguments[n]?
    else value? name

def itemsOf (m : Manner) (value : Text) : List Item :=
  if m.quoted then Item.octets value true false
  else .seam :: Item.octets value false m.cuts

/-- Whether a name stands for all arguments. -/
def isArguments (name : Text) : Bool := name == ['@'] || name == ['*']

/-- Whether all arguments stay apart, as they do where the word becomes fields. -/
def staysApart (m : Manner) (name : Text) : Act Bool := do
  if m.quoted then return m.cuts && name == ['@']
  else return m.cuts && (← value? "IFS").isSome

def apartItems (m : Manner) (arguments : List Text) : List Item :=
  if m.quoted then
    [Item.next].intercalate (arguments.map fun a => .keep :: Item.octets a true false)
  else
    .seam :: [Item.nextIfAny].intercalate (arguments.map fun a => Item.octets a false true)

def argumentItems (m : Manner) (name : Text) : Act (List Item) := do
  if ← staysApart m name then return apartItems m (← get).arguments
  else return itemsOf m (← joinedArguments)

/-- The items of a parameter that is set. -/
def valueItems (m : Manner) (name value : Text) : Act (List Item) := do
  if isArguments name then argumentItems m name else return itemsOf m value

def notSet {α : Type} (name : Text) (tail : Text := []) : Act α :=
  fail (name ++ ": parameter not set" ++ tail)

/-! ### Parts -/

/-- The name behind a tilde and the parts that follow it, if nothing in the name is quoted. -/
def tildeName? (m : Manner) (w : Word) : Option (Text × Word) :=
  let start := plainStart w
  let name := start.takeWhile fun c => c != '/' && !(m.tildes && c == ':')
  if name.length < start.length ∨ name.length = w.length then some (name, w.drop name.length)
  else none

/-- The items of a tilde and the name behind it, with the parts that follow. -/
def tildeItems (m : Manner) (w : Word) : Act (List Item × Word) := do
  let cuts := m.cuts && m.inner
  match tildeName? m w with
  | none => return ([.octet '~' false cuts], w)
  | some (name, rest) =>
    match ← home? name with
    | none => return ([.octet '~' false cuts], w)
    | some dir => return (Item.octets dir true false, rest)

/-- Where an expression in a script finds its variables. -/
def store (expression : Text) : Expr.Store Act where
  read name := do
    let text := (← value? name).getD []
    match Expr.ofText? text with
    | some n => return n
    | none => fail ("Illegal number: " ++ text)
  write name n := assign name (Text.ofInt n)
  fail what := fail ("arithmetic expression: " ++ what ++ ": \x22" ++ expression ++ "\x22")

def evaluate (expression : Text) : Act Int :=
  Expr.eval (store expression) (Expr.parse expression)

/-- The items of a substitution.  Its word is not looked at where it does not matter. -/
def substituteItems (expand : Manner → Word → Act (List Item)) (m : Manner) (name : Text)
    (how : Substitution) (argument : Word) : Act (List Item) := do
  let value ← parameter? name
  let missing (emptyToo : Bool) : Bool := value.isNone || (emptyToo && value == some [])
  let word : Act (List Item) := expand { m with tilde := !m.quoted, inner := true } argument
  let plainWord : Act Text :=
    return Item.text (← expand { tilde := true, quoted := m.quoted, inner := true } argument)
  let needed : Act Text := do
    match value with
    | some v => return v
    | none =>
      if ← isOn 'u' then
        if isArguments name then return [] else notSet name
      else return []
  let trim (cut : Pattern → Text → Text) (cutAll : Pattern → List Text → List Text) :
      Act (List Item) := do
    let v ← needed
    if value.isNone then return []
    let items ← expand { tilde := true, inner := true } argument
    let pattern := Pattern.ofChars (Item.patternChars items)
    if isArguments name && (← staysApart m name) then
      return apartItems m (cutAll pattern (← get).arguments)
    else return itemsOf m (cut pattern v)
  match how with
  | .value => valueItems m name (← needed)
  | .length => return itemsOf m (Text.ofNat (← needed).length)
  | .orElse emptyToo => if missing emptyToo then word else valueItems m name (value.getD [])
  | .ifSet emptyToo => if missing emptyToo then return [] else word
  | .assign emptyToo =>
    if missing emptyToo then
      let text ← plainWord
      if !isName name then fail (name ++ ": bad variable name")
      assign name text
      valueItems m name text
    else valueItems m name (value.getD [])
  | .demand emptyToo =>
    if missing emptyToo then
      if argument.isEmpty then notSet name (if emptyToo then " or null" else [])
      else fail (name ++ ": " ++ (← plainWord))
    else valueItems m name (value.getD [])
  | .trimStart longest => trim (Pattern.trimStart · longest) (Pattern.trimStartOfAll · longest)
  | .trimEnd longest => trim (Pattern.trimEnd · longest) (Pattern.trimEndOfAll · longest)
  | .malformed => fail "Bad substitution"

/-- The output of commands without the line breaks at its end. -/
def withoutBreaks (output : Text) : Text :=
  ((output.filter (· != '\x00')).reverse.dropWhile (· == '\n')).reverse

def partItems (capture : Capture) (expand : Manner → Word → Act (List Item)) (m : Manner) :
    Part → Act (List Item)
  | .char c => return [.octet c m.quoted (m.cuts && m.inner && !m.quoted)]
  | .escaped c => return [.octet c true false]
  | .single text => return .keep :: Item.octets text true false
  | .double [.parameter ['@'] .value []] => argumentItems { m with quoted := true } "@"
  | .double parts => return .keep :: (← expand { m with quoted := true, tilde := false } parts)
  | .parameter name how argument => substituteItems expand m name how argument
  | .command body => return itemsOf m (withoutBreaks (← capture body))
  | .arithmetic expression => do
    let text := Item.text (← expand { quoted := true } expression)
    return itemsOf m (Text.ofInt (← evaluate text))

/-- The items of the parts of a word, behind those in `found`, last first. -/
def wordItems (capture : Capture) (expand : Manner → Word → Act (List Item)) (m : Manner) :
    Nat → Bool → Word → List (List Item) → Act (List Item)
  | 0, _, _, found => return found.reverse.flatten
  | _, _, [], found => return found.reverse.flatten
  | fuel + 1, tildeHere, part :: rest, found => do
    match part, tildeHere with
    | .char '~', true =>
      let (items, rest) ← tildeItems m rest
      wordItems capture expand m fuel false rest (items :: found)
    | _, _ =>
      let items ← partItems capture expand m part
      let afterColon := match part with
        | .char ':' => m.tildes && !m.quoted
        | _ => false
      wordItems capture expand m fuel afterColon rest (items :: found)

def expand (capture : Capture) : Nat → Manner → Word → Act (List Item)
  | 0, _, _ => fail "out of memory"
  | fuel + 1, m, w =>
    wordItems capture (expand capture fuel) m (w.length + 1) m.tilde w []

/-! ### Words -/

/-- The greatest depth of words in words. -/
def depthLimit : Nat := 10000

/-- The text that a word stands for where it becomes no fields. -/
def textOf (capture : Capture) (m : Manner) (w : Word) : Act Text := do
  return Item.text (← expand capture depthLimit { m with cuts := false } w)

def patternOf (capture : Capture) (w : Word) : Act Pattern := do
  let items ← expand capture depthLimit { tilde := true } w
  return Pattern.ofChars (Item.patternChars items)

def fieldsOf (capture : Capture) (w : Word) : Act (List Text) := do
  let items ← expand capture depthLimit { cuts := true, tilde := true } w
  let cut := fields (← separators) items
  if ← isOn 'f' then return cut.map Item.text
  else
    let t ← os Process.tree
    let here ← os Process.directory
    return cut.flatMap (fileNames t here)

def fieldsOfAll (capture : Capture) : List Word → Act (List Text)
  | [] => return []
  | w :: rest => do
    let first ← fieldsOf capture w
    return first ++ (← fieldsOfAll capture rest)

end Act
end NinjaPlan.Script
