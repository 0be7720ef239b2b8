import Mathlib.Tactic.SplitIfs
import NinjaPlan.Text.Utf8

/-! # Bytes and texts

Decoding loses nothing: the text that bytes are read as encodes to these bytes
(`encode_of_decode`).  Nor does encoding, by which texts that differ have different bytes
(`encode_injective`).  `Opened` says what has been read of a character that has been begun: which
bytes, and that the next one leads to a character of exactly so many bytes. -/

namespace NinjaPlan.Utf8

/-- A character has been begun by reading the bytes `pre`. -/
inductive Opened : Begun → Bytes → Prop where
  | two {v : Nat} : 2 ≤ v → v < 0x20 → Opened ⟨1, 0x80, 0xBF, v⟩ [(0xC0 + v).toUInt8]
  | three {low high v : Nat} : v < 0x10 → 0x80 ≤ low → high ≤ 0xBF →
      (∀ k, low ≤ 0x80 + k → 0x80 + k ≤ high →
        0x20 ≤ v * 0x40 + k ∧ (v * 0x40 + k < 0x360 ∨ 0x380 ≤ v * 0x40 + k)) →
      Opened ⟨2, low, high, v⟩ [(0xE0 + v).toUInt8]
  | threeEnd {v : Nat} : 0x20 ≤ v → v < 0x400 → v < 0x360 ∨ 0x380 ≤ v →
      Opened ⟨1, 0x80, 0xBF, v⟩ [(0xE0 + v / 0x40).toUInt8, (0x80 + v % 0x40).toUInt8]
  | four {low high v : Nat} : 0x80 ≤ low → high ≤ 0xBF →
      (∀ k, low ≤ 0x80 + k → 0x80 + k ≤ high → 0x10 ≤ v * 0x40 + k ∧ v * 0x40 + k < 0x110) →
      Opened ⟨3, low, high, v⟩ [(0xF0 + v).toUInt8]
  | fourMiddle {v : Nat} : 0x10 ≤ v → v < 0x110 →
      Opened ⟨2, 0x80, 0xBF, v⟩ [(0xF0 + v / 0x40).toUInt8, (0x80 + v % 0x40).toUInt8]
  | fourEnd {v : Nat} : 0x400 ≤ v → v < 0x4400 →
      Opened ⟨1, 0x80, 0xBF, v⟩ [(0xF0 + v / 0x1000).toUInt8, (0x80 + v / 0x40 % 0x40).toUInt8,
        (0x80 + v % 0x40).toUInt8]

/-- Reading has gone on after `pre` with the byte `b`: the bytes are those of a character, or of
one that is still to be ended. -/
def Reads (pre : Bytes) (b : UInt8) (read : List Piece × Option Begun) : Prop :=
  (∃ c, read = ([some c], none) ∧ encodeChar c = pre ++ [b]) ∨
    ∃ q, read = ([], some q) ∧ Opened q (pre ++ [b])

theorem toNat_ofNat {n : Nat} (h : n.isValidChar) : (Char.ofNat n).toNat = n := by
  unfold Char.ofNat
  rw [dif_pos h]
  rfl

/-- A byte inside a character stands for six bits. -/
theorem exists_eq_toUInt8 {b : UInt8} (hlow : 0x80 ≤ b.toNat) (hhigh : b.toNat ≤ 0xBF) :
    ∃ k < 0x40, b.toNat = 0x80 + k ∧ b = (0x80 + k).toUInt8 := by
  obtain ⟨k, hk⟩ := Nat.exists_eq_add_of_le hlow
  refine ⟨k, by omega, hk, ?_⟩
  rw [← hk]
  exact UInt8.ofNat_toNat.symm

theorem first_reads (b : UInt8) : none ∈ (first b).1 ∨ Reads [] b (first b) := by
  have hb : b = b.toNat.toUInt8 := UInt8.ofNat_toNat.symm
  have hadd : ∀ m ≤ b.toNat, b = (m + (b.toNat - m)).toUInt8 := by
    intro m hm
    rw [Nat.add_sub_cancel' hm]
    exact hb
  unfold first
  dsimp only
  split_ifs with h1 h2 h3 h4 h5 h6 h7 h8
  · refine Or.inr (Or.inl ⟨_, rfl, ?_⟩)
    have hvalid : b.toNat.isValidChar := Or.inl (by omega)
    unfold encodeChar
    dsimp only
    rw [toNat_ofNat hvalid, if_pos h1, ← hb]
    rfl
  · refine Or.inr (Or.inr ⟨_, rfl, ?_⟩)
    have hopened := Opened.two (v := b.toNat - 0xC0) (by omega) (by omega)
    rwa [← hadd 0xC0 (by omega)] at hopened
  · refine Or.inr (Or.inr ⟨_, rfl, ?_⟩)
    rw [hb, h3]
    exact Opened.three (by omega) (by omega) (by omega) (by omega)
  · refine Or.inr (Or.inr ⟨_, rfl, ?_⟩)
    rw [hb, h4]
    exact Opened.three (by omega) (by omega) (by omega) (by omega)
  · refine Or.inr (Or.inr ⟨_, rfl, ?_⟩)
    have hopened : Opened ⟨2, 0x80, 0xBF, b.toNat - 0xE0⟩ [(0xE0 + (b.toNat - 0xE0)).toUInt8] :=
      Opened.three (by omega) (by omega) (by omega) (by omega)
    rwa [← hadd 0xE0 (by omega)] at hopened
  · refine Or.inr (Or.inr ⟨_, rfl, ?_⟩)
    rw [hb, h6]
    exact Opened.four (by omega) (by omega) (by omega)
  · refine Or.inr (Or.inr ⟨_, rfl, ?_⟩)
    have hopened : Opened ⟨3, 0x80, 0xBF, b.toNat - 0xF0⟩ [(0xF0 + (b.toNat - 0xF0)).toUInt8] :=
      Opened.four (by omega) (by omega) (by omega)
    rwa [← hadd 0xF0 (by omega)] at hopened
  · refine Or.inr (Or.inr ⟨_, rfl, ?_⟩)
    rw [hb, h8]
    exact Opened.four (by omega) (by omega) (by omega)
  · exact Or.inl List.mem_cons_self

theorem Opened.low_high {p : Begun} {pre : Bytes} (h : Opened p pre) :
    0x80 ≤ p.low ∧ p.high ≤ 0xBF := by
  cases h <;> dsimp only <;> omega

/-- Six more bits are the last digit to the base 64. -/
theorem digits (v : Nat) {k : Nat} (hk : k < 0x40) :
    (v * 0x40 + k) / 0x40 = v ∧ (v * 0x40 + k) % 0x40 = k := by omega

theorem resume_reads {p : Begun} {pre : Bytes} (h : Opened p pre) (b : UInt8) :
    none ∈ (p.resume b).1 ∨ Reads pre b (p.resume b) := by
  unfold Begun.resume
  dsimp only
  by_cases hrange : p.low ≤ b.toNat ∧ b.toNat ≤ p.high
  · rw [if_pos hrange]
    refine Or.inr ?_
    obtain ⟨hlow, hhigh⟩ := hrange
    obtain ⟨hbottom, htop⟩ := h.low_high
    obtain ⟨k, hk, hnat, hbyte⟩ := exists_eq_toUInt8 (Nat.le_trans hbottom hlow)
      (Nat.le_trans hhigh htop)
    rw [hnat] at hlow hhigh
    rw [hnat, Nat.add_sub_cancel_left]
    cases h with
    | @two v hv hv' =>
        obtain ⟨hdiv, hmod⟩ := digits v hk
        have hvalid : (v * 0x40 + k).isValidChar := Or.inl (by omega)
        refine Or.inl ⟨_, if_pos (Nat.le_refl 1), ?_⟩
        unfold encodeChar
        dsimp only
        rw [toNat_ofNat hvalid, if_neg (by omega), if_pos (by omega), hdiv, hmod, hbyte]
        rfl
    | @three low high v hv hlow' hhigh' hnext =>
        obtain ⟨hdiv, hmod⟩ := digits v hk
        obtain ⟨hleast, hgap⟩ := hnext k hlow hhigh
        refine Or.inr ⟨_, if_neg (by simp), ?_⟩
        have hopened := Opened.threeEnd hleast (by omega) hgap
        rwa [hdiv, hmod, ← hbyte] at hopened
    | @threeEnd v hleast hmost hgap =>
        obtain ⟨hdiv, hmod⟩ := digits v hk
        have hdiv' : (v * 0x40 + k) / 0x1000 = v / 0x40 := by omega
        have hvalid : (v * 0x40 + k).isValidChar := by
          rcases hgap with hgap | hgap
          · exact Or.inl (by omega)
          · exact Or.inr (by omega)
        refine Or.inl ⟨_, if_pos (Nat.le_refl 1), ?_⟩
        unfold encodeChar
        dsimp only
        rw [toNat_ofNat hvalid, if_neg (by omega), if_neg (by omega), if_pos (by omega), hdiv, hdiv',
          hmod, hbyte]
        rfl
    | @four low high v hlow' hhigh' hnext =>
        obtain ⟨hdiv, hmod⟩ := digits v hk
        obtain ⟨hleast, hmost⟩ := hnext k hlow hhigh
        refine Or.inr ⟨_, if_neg (by simp), ?_⟩
        have hopened := Opened.fourMiddle hleast hmost
        rwa [hdiv, hmod, ← hbyte] at hopened
    | @fourMiddle v hleast hmost =>
        obtain ⟨hdiv, hmod⟩ := digits v hk
        have hdiv' : (v * 0x40 + k) / 0x1000 = v / 0x40 := by omega
        refine Or.inr ⟨_, if_neg (by simp), ?_⟩
        have hopened := Opened.fourEnd (v := v * 0x40 + k) (by omega) (by omega)
        rwa [hdiv, hdiv', hmod, ← hbyte] at hopened
    | @fourEnd v hleast hmost =>
        obtain ⟨hdiv, hmod⟩ := digits v hk
        have hdiv' : (v * 0x40 + k) / 0x1000 = v / 0x40 := by omega
        have hdiv'' : (v * 0x40 + k) / 0x40000 = v / 0x1000 := by omega
        have hvalid : (v * 0x40 + k).isValidChar := Or.inr (by omega)
        refine Or.inl ⟨_, if_pos (Nat.le_refl 1), ?_⟩
        unfold encodeChar
        dsimp only
        rw [toNat_ofNat hvalid, if_neg (by omega), if_neg (by omega), if_neg (by omega), hdiv, hdiv',
          hdiv'', hmod, hbyte]
        rfl
  · rw [if_neg hrange]
    exact Or.inl List.mem_cons_self

/-! ### Whole sequences -/

/-- What has been read but not yet found to be a character. -/
def Pending : Option Begun → Bytes → Prop
  | none, pre => pre = []
  | some p, pre => Opened p pre

theorem step_reads {before : Option Begun} {pre : Bytes} (h : Pending before pre) (b : UInt8) :
    none ∈ (step before b).1 ∨ Reads pre b (step before b) := by
  cases before with
  | none =>
      obtain rfl := h
      exact first_reads b
  | some p => exact resume_reads h b

theorem mem_scanFrom_of_mem {found : List Piece} {piece : Piece} (h : piece ∈ found)
    (before : Option Begun) (bs : Bytes) : piece ∈ scanFrom found before bs := by
  induction bs generalizing found before with
  | nil =>
      unfold scanFrom
      split <;> simp [h]
  | cons b bs ih => exact ih (List.mem_append_right _ h) _

/-- Without malformed runs, what is found encodes to what has been read. -/
theorem encode_scanFrom {found : List Piece} {before : Option Begun} {pre : Bytes}
    (h : Pending before pre) (bs : Bytes) (hwell : none ∉ scanFrom found before bs) :
    encode ((scanFrom found before bs).filterMap id) =
      encode (found.reverse.filterMap id) ++ pre ++ bs := by
  induction bs generalizing found before pre with
  | nil =>
      cases before with
      | none =>
          obtain rfl := h
          simp [scanFrom]
      | some p => simp [scanFrom] at hwell
  | cons b bs ih =>
      unfold scanFrom at hwell ⊢
      rcases step_reads h b with hnone | ⟨c, hread, hencode⟩ | ⟨q, hread, hopened⟩
      · have hmem := List.mem_append_left found (List.mem_reverse.mpr hnone)
        exact absurd (mem_scanFrom_of_mem hmem _ bs) hwell
      · rw [hread] at hwell ⊢
        have hpending : Pending none [] := rfl
        rw [ih hpending hwell]
        simp [encode, hencode]
      · rw [hread] at hwell ⊢
        have hpending : Pending (some q) (pre ++ [b]) := hopened
        rw [ih hpending hwell]
        simp

/-- **Decoding loses nothing.** -/
theorem encode_of_decode {bs : Bytes} {s : Text} (h : decode bs = some s) : encode s = bs := by
  unfold decode at h
  dsimp only at h
  split at h
  · next hall =>
      obtain rfl := Option.some.inj h
      have hwell : none ∉ scan bs := fun hnone => by simpa using List.all_eq_true.mp hall _ hnone
      have hpending : Pending none [] := rfl
      exact encode_scanFrom hpending bs hwell
  · cases h

/-! ### Encoding -/

theorem toNat_lt (c : Char) : c.toNat < 0x110000 := by
  rcases c.valid with h | ⟨-, h⟩
  · exact Nat.lt_trans h (by decide)
  · exact h

theorem encodeChar_eq (c : Char) : encodeChar c = String.utf8EncodeChar c := by
  have hlt := toNat_lt c
  have hbytes : ∀ n m : Nat, n = m → n.toUInt8 = UInt8.ofNat m := fun _ _ => congrArg UInt8.ofNat
  have hval : c.val.toNat = c.toNat := rfl
  unfold encodeChar String.utf8EncodeChar
  simp only [hval]
  generalize c.toNat = n at hlt
  split_ifs <;> try omega
  · rfl
  · rw [hbytes _ (n / 64 % 32 + 192) (by omega), hbytes _ (n % 64 + 128) (by omega)]
  · rw [hbytes _ (n / 4096 % 16 + 224) (by omega), hbytes _ (n / 64 % 64 + 128) (by omega),
      hbytes _ (n % 64 + 128) (by omega)]
  · rw [hbytes _ (n / 262144 % 8 + 240) (by omega), hbytes _ (n / 4096 % 64 + 128) (by omega),
      hbytes _ (n / 64 % 64 + 128) (by omega), hbytes _ (n % 64 + 128) (by omega)]

/-- Different texts have different bytes. -/
theorem encode_injective {s t : Text} (h : encode s = encode t) : s = t := by
  have hbytes : ∀ u : Text, encode u = u.flatMap String.utf8EncodeChar := fun u =>
    congrArg u.flatMap (funext encodeChar_eq)
  rw [hbytes, hbytes] at h
  have hstring : (String.ofList s).toByteArray = (String.ofList t).toByteArray := by
    rw [String.toByteArray_ofList, String.toByteArray_ofList, List.utf8Encode, List.utf8Encode, h]
  exact String.ofList_injective (String.toByteArray_inj.mp hstring)
end NinjaPlan.Utf8
