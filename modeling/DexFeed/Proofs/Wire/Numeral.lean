import Mathlib.Algebra.Group.Nat.Defs
import DexFeed.Wire.Codec

/-!
# Numerals on the wire

A numeral of `n` bytes denotes a number below `256 ^ n`, and writing a number keeps what `n` bytes
can hold of it. Reading a number off the front of a byte string therefore takes back exactly what
was written there.
-/

namespace DexFeed

/-- A byte string of length `n` denotes a number below `256 ^ n`. -/
theorem ofLittleEndian_lt (bs : Bytes) : ofLittleEndian bs < 256 ^ bs.length := by
  induction bs with
  | nil => simp [ofLittleEndian]
  | cons b rest ih =>
    have hb : b.toNat < 256 := b.toNat_lt
    simp only [ofLittleEndian, List.length_cons, Nat.pow_succ]
    omega

/-- Writing `n` bytes keeps a number modulo `256 ^ n`. -/
theorem ofLittleEndian_littleEndian (n v : Nat) :
    ofLittleEndian (littleEndian n v) = v % 256 ^ n := by
  induction n generalizing v with
  | zero => simp [littleEndian, ofLittleEndian, Nat.mod_one]
  | succ n ih =>
    have hb : (UInt8.ofNat (v % 256)).toNat = v % 256 := by
      simp [UInt8.toNat_ofNat']
    rw [littleEndian, ofLittleEndian, hb, ih, Nat.pow_succ, Nat.mul_comm (256 ^ n), Nat.mod_mul]

/-- Every byte string is the numeral of the number it denotes. -/
theorem littleEndian_ofLittleEndian (bs : Bytes) :
    littleEndian bs.length (ofLittleEndian bs) = bs := by
  induction bs with
  | nil => rfl
  | cons b rest ih =>
    have hb : b.toNat < 256 := b.toNat_lt
    have hm : (b.toNat + 256 * ofLittleEndian rest) % 256 = b.toNat := by omega
    have hd : (b.toNat + 256 * ofLittleEndian rest) / 256 = ofLittleEndian rest := by omega
    simp [littleEndian, ofLittleEndian, hm, hd, ih]

/-- Reading a number of `n` bytes returns one that was written in front of any others. -/
theorem parseNat_append {n v : Nat} (h : v < 256 ^ n) (rest : Bytes) :
    parseNat n (littleEndian n v ++ rest) = some (v, rest) := by
  have := Fixed.take?_append ⟨littleEndian n v, length_littleEndian n v⟩ rest
  simp only at this
  simp [parseNat, this, ofLittleEndian_littleEndian, Nat.mod_eq_of_lt h]

/-- What a number was read from is its numeral followed by what is left. -/
theorem eq_append_of_parseNat {n v : Nat} {bs rest : Bytes} (h : parseNat n bs = some (v, rest)) :
    bs = littleEndian n v ++ rest ∧ v < 256 ^ n := by
  unfold parseNat at h
  obtain ⟨⟨x, r⟩, hx, he⟩ := Option.map_eq_some_iff.1 h
  simp only [Prod.mk.injEq] at he
  obtain ⟨rfl, rfl⟩ := he
  have hb := Fixed.eq_append_of_take? hx
  obtain ⟨xs, rfl⟩ := x
  exact ⟨by rw [littleEndian_ofLittleEndian]; exact hb, ofLittleEndian_lt xs⟩

end DexFeed
