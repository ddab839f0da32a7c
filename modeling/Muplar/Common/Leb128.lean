import Mathlib.Algebra.Order.Ring.Int
import Mathlib.Tactic.LinearCombination
import Mathlib.Tactic.Ring
import Muplar.Common.Bytes
/-!
# Signed LEB128

A whole number as bytes of seven bits each, lowest first, every byte but
the last with its high bit set; the last byte's bit 6 is the sign. A
decoder of 64-bit words collects the bits with a disjunction at a
growing shift, which is addition as long as the bits below are all that
has been collected.
-/

namespace Muplar

namespace Leb128

/-- The shortest encoding of a number. -/
def encode (x : ℤ) : Bytes :=
  if -64 ≤ x ∧ x < 64 then [UInt8.ofNat (x % 128).toNat]
  else UInt8.ofNat ((x % 128).toNat + 128) :: encode (x / 128)
termination_by x.natAbs
decreasing_by omega

/-- A word of 64 bits as a signed number. -/
def signed (v : UInt64) : ℤ :=
  v.toBitVec.toInt

/-- The encoding of a word, read as a signed number. -/
def encodeWord (v : UInt64) : Bytes :=
  encode (signed v)

theorem encode_of_small {x : ℤ} (h : -64 ≤ x ∧ x < 64) :
    encode x = [UInt8.ofNat (x % 128).toNat] := by
  rw [encode, if_pos h]

theorem encode_of_large {x : ℤ} (h : ¬(-64 ≤ x ∧ x < 64)) :
    encode x = UInt8.ofNat ((x % 128).toNat + 128) :: encode (x / 128) := by
  rw [encode, if_neg h]

theorem signed_bounds (v : UInt64) : -2 ^ 63 ≤ signed v ∧ signed v < 2 ^ 63 :=
  ⟨BitVec.le_toInt v.toBitVec, BitVec.toInt_lt⟩

theorem toNat_ofInt (z : ℤ) : ((UInt64.ofInt z).toNat : ℤ) = z % 2 ^ 64 := by
  rw [UInt64.ofInt, UInt64.toNat_ofNat']
  omega

/-- A word is its signed number, cut to 64 bits. -/
theorem ofInt_signed (v : UInt64) : UInt64.ofInt (signed v) = v := by
  have hv : signed v = if 2 * v.toNat < 2 ^ 64 then (v.toNat : ℤ) else v.toNat - 2 ^ 64 :=
    BitVec.toInt_eq_toNat_cond v.toBitVec
  have hlt := v.toNat_lt
  have hcut := toNat_ofInt (signed v)
  apply UInt64.toNat_inj.mp
  split at hv <;> omega

example : (encodeWord 0x8000000000000000).length = 10 := by
  simp [encodeWord, signed, encode]

/-! ## Collecting bits -/

/-- Bits above those that are there are added. -/
theorem toNat_or_shiftLeft {value w : UInt64} {s : ℕ} (hs : s < 64) (hvalue : value.toNat < 2 ^ s) :
    (value ||| w <<< UInt64.ofNat s).toNat = value.toNat + w.toNat * 2 ^ s % 2 ^ 64 := by
  obtain ⟨t, ht⟩ : (2 : ℕ) ^ s ∣ 2 ^ 64 := Nat.pow_dvd_pow 2 (by omega)
  have hshift : (w <<< UInt64.ofNat s).toNat = 2 ^ s * (w.toNat % t) := by
    rw [UInt64.toNat_shiftLeft, UInt64.toNat_ofNat', Nat.mod_eq_of_lt (a := s) (by omega),
      Nat.mod_eq_of_lt hs, Nat.shiftLeft_eq, ht, Nat.mul_comm, Nat.mul_mod_mul_left]
  rw [UInt64.toNat_or, hshift, Nat.or_comm, ← Nat.two_pow_add_eq_or_of_lt hvalue, ht,
    Nat.mul_comm w.toNat, Nat.mul_mod_mul_left, Nat.add_comm]

/-- Filling up with ones from bit `s` on. -/
theorem toNat_or_neg_shiftLeft {value : UInt64} {s : ℕ} (hs : s < 64)
    (hvalue : value.toNat < 2 ^ s) :
    (value ||| -((1 : UInt64) <<< UInt64.ofNat s)).toNat = value.toNat + (2 ^ 64 - 2 ^ s) := by
  have hlt : 2 ^ s < 2 ^ 64 := Nat.pow_lt_pow_right (by omega) hs
  have hsplit : 2 ^ 64 = 2 ^ s * 2 ^ (64 - s) := by
    rw [← Nat.pow_add]
    congr 1
    omega
  have hone : ((1 : UInt64) <<< UInt64.ofNat s).toNat = 2 ^ s := by
    rw [UInt64.toNat_shiftLeft, UInt64.toNat_ofNat', Nat.mod_eq_of_lt (a := s) (by omega),
      Nat.mod_eq_of_lt hs, Nat.shiftLeft_eq]
    exact (congrArg (· % 2 ^ 64) (Nat.one_mul _)).trans (Nat.mod_eq_of_lt hlt)
  have hneg : (-((1 : UInt64) <<< UInt64.ofNat s)).toNat = 2 ^ s * (2 ^ (64 - s) - 1) := by
    rw [UInt64.toNat_neg, hone, Nat.mul_sub, ← hsplit, Nat.mul_one]
    exact Nat.mod_eq_of_lt (Nat.sub_lt (Nat.two_pow_pos 64) (Nat.two_pow_pos s))
  rw [UInt64.toNat_or, hneg, Nat.or_comm, ← Nat.two_pow_add_eq_or_of_lt hvalue, Nat.mul_sub,
    ← hsplit, Nat.mul_one, Nat.add_comm]

/-! ## The bytes of an encoding -/

theorem last_byte : ∀ c < 128, (UInt8.ofNat c &&& 127).toUInt64.toNat = c ∧
    UInt8.ofNat c &&& 128 = 0 ∧ (UInt8.ofNat c &&& 64 ≠ 0 ↔ 64 ≤ c) := by
  decide

theorem other_byte : ∀ c < 128, (UInt8.ofNat (c + 128) &&& 127).toUInt64.toNat = c ∧
    UInt8.ofNat (c + 128) &&& 128 ≠ 0 := by
  decide

end Leb128

end Muplar
