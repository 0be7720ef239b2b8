import NinjaPlan.Text.Utf8

/-! # Octets

What programs read, print and are called with is bytes.  Where bytes are to be taken apart like
a text, each stands as the character of its number, so that the functions on texts serve for
them; `ofBytes` and `toBytes` pass between the two views. -/

namespace NinjaPlan.Octets

/-- The bytes as characters below 256. -/
def ofBytes (bytes : Bytes) : Text := bytes.map fun b => Char.ofNat b.toNat

/-- The bytes that characters below 256 stand for. -/
def toBytes (octets : Text) : Bytes := octets.map fun c => c.toNat.toUInt8

/-- The bytes of a text's encoding, as characters. -/
def ofText (text : Text) : Text := ofBytes (Utf8.encode text)

theorem toNat_ofByte (b : UInt8) : (Char.ofNat b.toNat).toNat = b.toNat := by
  have valid : b.toNat.isValidChar := Or.inl (Nat.lt_trans b.toNat_lt (by decide))
  unfold Char.ofNat
  rw [dif_pos valid]
  rfl

@[simp] theorem toBytes_ofBytes (bytes : Bytes) : toBytes (ofBytes bytes) = bytes := by
  simp only [toBytes, ofBytes, List.map_map]
  conv => rhs; rw [← List.map_id bytes]
  apply List.map_congr_left
  intro b _
  simp [toNat_ofByte]

@[simp] theorem ofBytes_append (a b : Bytes) : ofBytes (a ++ b) = ofBytes a ++ ofBytes b := by
  simp [ofBytes]

@[simp] theorem toBytes_append (a b : Text) : toBytes (a ++ b) = toBytes a ++ toBytes b := by
  simp [toBytes]

end NinjaPlan.Octets
