import NinjaPlan.Text.Basic

/-! # JSON texts

The log shows values as indented JSON: two spaces a level, one member a line, members in the
order of their declaration, and no character escaped that need not be. -/

namespace NinjaPlan

/-- The JSON values that occur in the log. -/
inductive Json where
  | string (s : Text)
  | array (items : List Json)
  | object (members : List (Text × Json))

namespace Json

/-- One character of a JSON string. -/
def escapeChar (c : Char) : Text :=
  if c = '\x22' then "\\\x22"
  else if c = '\\' then "\\\\"
  else if c = '\x08' then "\\b"
  else if c = '\x0c' then "\\f"
  else if c = '\n' then "\\n"
  else if c = '\r' then "\\r"
  else if c = '\t' then "\\t"
  else if c.toNat < 0x20 then
    "\\u00" ++ (if c.toNat < 0x10 then "0" else "1") ++ Nat.toDigits 16 (c.toNat % 16)
  else [c]

/-- A JSON string. -/
def quote (s : Text) : Text := "\x22" ++ s.flatMap escapeChar ++ "\x22"

/-- The start of a line at a level of nesting. -/
def newline (level : Nat) : Text := '\n' :: List.replicate (2 * level) ' '

mutual

/-- The indented text of a value that stands at the given level of nesting. -/
def prettyAt (level : Nat) : Json → Text
  | .string s => quote s
  | .array [] => "[]"
  | .array (v :: vs) =>
    "[" ++ newline (level + 1) ++ prettyAt (level + 1) v ++ prettyItems (level + 1) vs ++
      newline level ++ "]"
  | .object [] => "\x7b\x7d"
  | .object ((k, v) :: ms) =>
    "\x7b" ++ newline (level + 1) ++ quote k ++ ": " ++ prettyAt (level + 1) v ++
      prettyMembers (level + 1) ms ++ newline level ++ "\x7d"

/-- The items after the first, each after a comma. -/
def prettyItems (level : Nat) : List Json → Text
  | [] => []
  | v :: vs => "," ++ newline level ++ prettyAt level v ++ prettyItems level vs

/-- The members after the first, each after a comma. -/
def prettyMembers (level : Nat) : List (Text × Json) → Text
  | [] => []
  | (k, v) :: ms =>
    "," ++ newline level ++ quote k ++ ": " ++ prettyAt level v ++ prettyMembers level ms

end

/-- The indented text of a value. -/
def pretty (v : Json) : Text := prettyAt 0 v

end Json
end NinjaPlan
