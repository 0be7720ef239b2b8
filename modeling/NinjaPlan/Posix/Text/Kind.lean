import NinjaPlan.Posix.Text.Number

/-! # Kinds of octets

The kinds of octets that patterns, regular expressions and tools know by name. -/

namespace NinjaPlan.Kind

/-- Whether an octet leaves ink. -/
def isGraph (c : Char) : Bool := 0x21 ≤ c.toNat && c.toNat ≤ 0x7E

/-- The kinds with their names. -/
def table : List (String × (Char → Bool)) := [
  ("alnum", Char.isAlphanum), ("alpha", Char.isAlpha),
  ("blank", fun c => c == ' ' || c == '\t'),
  ("cntrl", fun c => c.toNat < 0x20 || c.toNat == 0x7F), ("digit", Char.isDigit),
  ("graph", isGraph), ("lower", Char.isLower), ("print", fun c => isGraph c || c == ' '),
  ("punct", fun c => isGraph c && !c.isAlphanum), ("space", Number.isSpace),
  ("upper", Char.isUpper), ("xdigit", fun c => Number.digitValue c < 16)]

def ofName? (name : Text) : Option (Char → Bool) :=
  (table.find? fun k => k.1.toList == name).map Prod.snd

end NinjaPlan.Kind
