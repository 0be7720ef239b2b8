import NinjaPlan.Text.Basic

/-! # Values in a build file

What the value of a variable in a Ninja file says: characters and references to variables.  A
`$` before a dollar sign, a space or a colon makes it a character of the value; before a name, or
a name in braces, it makes a reference.  A reference ends where its name does, so a doubled
dollar sign never begins one.

`readValue` reads a value from left to right; `readValue_double` says that text with every
dollar sign doubled stands for itself, whatever follows it. -/

namespace NinjaPlan.BuildFile

inductive ValuePart where
  | char (c : Char)
  /-- The value of a variable. -/
  | reference (name : Text)
  /-- A dollar sign that begins nothing. -/
  | malformed
deriving DecidableEq

/-- The characters of a name without braces. -/
def isVariableChar (c : Char) : Bool := c.isAlphanum || c == '_' || c == '-'

/-- How far a value has been read. -/
inductive ValueState where
  | plain
  /-- Behind a dollar sign. -/
  | dollar
  /-- In a name, of which some characters have been read. -/
  | name (found : Text)
  /-- In a name in braces. -/
  | braced (found : Text)

def readValueFrom : ValueState → Text → List ValuePart
  | .plain, [] => []
  | .dollar, [] | .braced _, [] => [.malformed]
  | .name found, [] => [.reference found]
  | .plain, c :: cs =>
    if c = '$' then readValueFrom .dollar cs else .char c :: readValueFrom .plain cs
  | .dollar, c :: cs =>
    if c = '$' ∨ c = ' ' ∨ c = ':' then .char c :: readValueFrom .plain cs
    else if c = '\x7b' then readValueFrom (.braced []) cs
    else if isVariableChar c then readValueFrom (.name [c]) cs
    else .malformed :: readValueFrom .plain cs
  | .name found, c :: cs =>
    if isVariableChar c then readValueFrom (.name (found ++ [c])) cs
    else if c = '$' then .reference found :: readValueFrom .dollar cs
    else .reference found :: .char c :: readValueFrom .plain cs
  | .braced found, c :: cs =>
    if c = '\x7d' then .reference found :: readValueFrom .plain cs
    else if isVariableChar c || c == '.' then readValueFrom (.braced (found ++ [c])) cs
    else .malformed :: readValueFrom .plain cs

def readValue (value : Text) : List ValuePart := readValueFrom .plain value

@[simp] theorem readValue_nil : readValue [] = [] := rfl

/-- A character without a meaning of its own stands for itself. -/
theorem readValue_cons {c : Char} (h : c ≠ '$') (cs : Text) :
    readValue (c :: cs) = .char c :: readValue cs := by
  simp [readValue, readValueFrom, h]

theorem readValue_dollar (cs : Text) :
    readValue ('$' :: '$' :: cs) = .char '$' :: readValue cs := by
  simp [readValue, readValueFrom]

/-- Text with doubled dollar signs stands for itself. -/
theorem readValue_double (s rest : Text) :
    readValue (Text.double '$' s ++ rest) = s.map .char ++ readValue rest := by
  induction s with
  | nil => rfl
  | cons c cs ih =>
    rw [Text.double_cons, List.append_assoc, List.map_cons, List.cons_append, ← ih]
    split
    · next h => subst h; exact readValue_dollar _
    · next h => exact readValue_cons h _

end NinjaPlan.BuildFile
