import NinjaPlan.Text.Basic

/-! # UTF-8

File names, file contents and program output are bytes; texts are characters.  `encode`
writes a text as bytes.  Reading is one machine, `scan`, which takes bytes one at a time and
yields characters and malformed runs in order: `decode` refuses a malformed run, `decodeLossy`
puts a replacement character in its place.

A malformed run is the longest start of a character's encoding that the next byte rules out,
or a single byte that starts no character. -/

namespace NinjaPlan

/-- A sequence of bytes: a file's content or a name on disk. -/
abbrev Bytes := List UInt8

namespace Utf8

def encodeChar (c : Char) : Bytes :=
  let n := c.toNat
  if n < 0x80 then [n.toUInt8]
  else if n < 0x800 then [(0xC0 + n / 0x40).toUInt8, (0x80 + n % 0x40).toUInt8]
  else if n < 0x10000 then
    [(0xE0 + n / 0x1000).toUInt8, (0x80 + n / 0x40 % 0x40).toUInt8, (0x80 + n % 0x40).toUInt8]
  else
    [(0xF0 + n / 0x40000).toUInt8, (0x80 + n / 0x1000 % 0x40).toUInt8,
      (0x80 + n / 0x40 % 0x40).toUInt8, (0x80 + n % 0x40).toUInt8]

def encode (s : Text) : Bytes := s.flatMap encodeChar

@[simp] theorem encode_nil : encode [] = [] := rfl

@[simp] theorem encode_append (s t : Text) : encode (s ++ t) = encode s ++ encode t := by
  simp [encode]

/-- A character begun: how many bytes it still needs, the range of the next one, and the
number read so far. -/
structure Begun where
  owed : Nat
  low : Nat
  high : Nat
  value : Nat

/-- What `scan` has found: a character, or `none` for a malformed run. -/
abbrev Piece := Option Char

/-- Reads a byte between characters. -/
def first (b : UInt8) : List Piece × Option Begun :=
  let n := b.toNat
  if n < 0x80 then ([some (Char.ofNat n)], none)
  else if 0xC2 ≤ n ∧ n ≤ 0xDF then ([], some ⟨1, 0x80, 0xBF, n - 0xC0⟩)
  else if n = 0xE0 then ([], some ⟨2, 0xA0, 0xBF, 0⟩)
  else if n = 0xED then ([], some ⟨2, 0x80, 0x9F, 0xD⟩)
  else if 0xE1 ≤ n ∧ n ≤ 0xEF then ([], some ⟨2, 0x80, 0xBF, n - 0xE0⟩)
  else if n = 0xF0 then ([], some ⟨3, 0x90, 0xBF, 0⟩)
  else if 0xF1 ≤ n ∧ n ≤ 0xF3 then ([], some ⟨3, 0x80, 0xBF, n - 0xF0⟩)
  else if n = 0xF4 then ([], some ⟨3, 0x80, 0x8F, 4⟩)
  else ([none], none)

/-- Reads a byte inside a character; one out of range ends the run and begins anew. -/
def Begun.resume (p : Begun) (b : UInt8) : List Piece × Option Begun :=
  let n := b.toNat
  if p.low ≤ n ∧ n ≤ p.high then
    let value := p.value * 0x40 + (n - 0x80)
    if p.owed ≤ 1 then ([some (Char.ofNat value)], none)
    else ([], some ⟨p.owed - 1, 0x80, 0xBF, value⟩)
  else
    let (found, after) := first b
    (none :: found, after)

/-- Reads one byte in either situation. -/
def step (before : Option Begun) (b : UInt8) : List Piece × Option Begun :=
  match before with
  | none => first b
  | some p => p.resume b

/-- The pieces of the bytes, in order, after those in `found` (last first). -/
def scanFrom (found : List Piece) (before : Option Begun) : Bytes → List Piece
  | [] => (if before.isSome then none :: found else found).reverse
  | b :: bs => scanFrom ((step before b).1.reverse ++ found) (step before b).2 bs

/-- The characters and malformed runs of the bytes, in order. -/
def scan (bs : Bytes) : List Piece := scanFrom [] none bs

/-- The text that the bytes encode, if they are well-formed. -/
def decode (bs : Bytes) : Option Text :=
  let found := scan bs
  if found.all Option.isSome then some (found.filterMap id) else none

/-- The text of the bytes, with U+FFFD for each malformed run. -/
def decodeLossy (bs : Bytes) : Text := (scan bs).map fun p => p.getD '\uFFFD'

end Utf8
end NinjaPlan
