import Mathlib.Algebra.CharP.Two
import Mathlib.Algebra.Polynomial.Div
import Mathlib.Algebra.Polynomial.Degree.Lemmas
import Mathlib.Data.ZMod.Basic
import Mathlib.Algebra.Field.ZMod
import Mathlib.Tactic.ComputeDegree
import Mathlib.Tactic.LinearCombination
import Mathlib.Tactic.Ring
import Muplar.Common.Bytes
/-!
# Checksums — CRC-32 and Adler-32

CRC-32 is the remainder of a polynomial over the field of two elements:
the message with its bytes' lowest bits first, and with the first 32 bits
inverted. A register of 32 bits that is shifted a bit at a time holds it,
the coefficients in reverse. Adler-32 is a sum and a sum of sums, and
both are known in closed form.
-/

namespace Muplar

namespace Checksums

open Polynomial

/-! ## CRC-32 -/

/-- The register moves by one bit. -/
def crcShift (crc : UInt32) : UInt32 :=
  (crc >>> 1) ^^^ (if crc &&& 1 ≠ 0 then 0xedb88320 else 0)

/-- A byte is taken into the register. -/
def crcByte (crc : UInt32) (b : UInt8) : UInt32 :=
  crcShift^[8] (crc ^^^ b.toUInt32)

/-- CRC-32 of a byte string. -/
def crc32 (data : Bytes) : UInt32 :=
  ~~~(data.foldl crcByte 0xffffffff)

/-- The generator. -/
noncomputable def generator : (ZMod 2)[X] :=
  X ^ 32 + X ^ 26 + X ^ 23 + X ^ 22 + X ^ 16 + X ^ 12 + X ^ 11 + X ^ 10 + X ^ 8 + X ^ 7 + X ^ 5 +
    X ^ 4 + X ^ 2 + X + 1

/-- A bit as an element of the field. -/
def bit (n i : ℕ) : ZMod 2 :=
  if n.testBit i then 1 else 0

/-- The polynomial of `width` bits, the lowest bit first. -/
noncomputable def polynomialOf (width n : ℕ) : (ZMod 2)[X] :=
  ∑ i ∈ Finset.range width, C (bit n i) * X ^ (width - 1 - i)

/-- The polynomial of a message. -/
noncomputable def messageOf (data : Bytes) : (ZMod 2)[X] :=
  data.foldl (fun m b => X ^ 8 * m + polynomialOf 8 b.toNat) 0

theorem bit_xor (m n i : ℕ) : bit (m ^^^ n) i = bit m i + bit n i := by
  rw [bit, bit, bit, Nat.testBit_xor]
  cases m.testBit i <;> cases n.testBit i <;> decide

theorem polynomialOf_xor (width m n : ℕ) :
    polynomialOf width (m ^^^ n) = polynomialOf width m + polynomialOf width n := by
  rw [polynomialOf, polynomialOf, polynomialOf, ← Finset.sum_add_distrib]
  refine Finset.sum_congr rfl fun i _ => ?_
  rw [bit_xor, C_add, add_mul]

theorem bit_of_lt {n k i : ℕ} (h : n < 2 ^ k) (hi : k ≤ i) : bit n i = 0 := by
  rw [bit, Nat.testBit_lt_two_pow (h.trans_le (Nat.pow_le_pow_right (by decide) hi))]
  rfl

theorem polynomialOf_zero (width : ℕ) : polynomialOf width 0 = 0 := by
  refine Finset.sum_eq_zero fun i _ => ?_
  rw [bit, Nat.zero_testBit, if_neg Bool.false_ne_true, C_0, zero_mul]

/-- The register's constant is the generator without its highest term. -/
theorem polynomialOf_generator : polynomialOf 32 0xedb88320 = generator - X ^ 32 := by
  have hbits : ∀ i ∈ Finset.range 32, bit 0xedb88320 i =
      if i ∈ [5, 8, 9, 15, 19, 20, 21, 23, 24, 26, 27, 29, 30, 31] then 1 else 0 := by
    decide
  have hsum : polynomialOf 32 0xedb88320 = ∑ i ∈ Finset.range 32,
      C (if i ∈ [5, 8, 9, 15, 19, 20, 21, 23, 24, 26, 27, 29, 30, 31] then 1 else 0) *
        X ^ (32 - 1 - i) :=
    Finset.sum_congr rfl fun i hi => by rw [hbits i hi]
  rw [hsum, generator]
  simp only [Finset.sum_range_succ, Finset.sum_range_zero]
  simp
  ring

/-- A shift to the right is a product with `X`, but for the bit that falls
out. -/
theorem polynomialOf_shiftRight {n : ℕ} (h : n < 2 ^ 32) :
    polynomialOf 32 (n / 2) + C (bit n 0) * X ^ 32 = X * polynomialOf 32 n := by
  have hbit : ∀ i, bit (n / 2) i = bit n (i + 1) := by
    intro i
    rw [bit, bit, Nat.testBit_succ]
  rw [polynomialOf, polynomialOf, Finset.sum_range_succ, Finset.sum_range_succ' _ 31, mul_add,
    hbit 31, bit_of_lt h le_rfl, C_0, zero_mul, add_zero, Finset.mul_sum]
  refine congrArg₂ (· + ·) ?_ ?_
  · refine Finset.sum_congr rfl fun i hi => ?_
    have hi := Finset.mem_range.mp hi
    rw [hbit, mul_left_comm, ← pow_succ']
    congr 2
    omega
  · rw [mul_left_comm, ← pow_succ']

theorem toNat_crcShift (crc : UInt32) : (crcShift crc).toNat =
    crc.toNat / 2 ^^^ (if crc.toNat.testBit 0 then 0xedb88320 else 0) := by
  have hlow : crc &&& 1 ≠ 0 ↔ crc.toNat.testBit 0 = true := by
    rw [Ne, ← UInt32.toNat_inj, UInt32.toNat_and, Nat.testBit_zero, decide_eq_true_eq]
    show ¬crc.toNat &&& 1 = 0 ↔ _
    rw [Nat.and_one_is_mod]
    omega
  rw [crcShift, UInt32.toNat_xor, UInt32.toNat_shiftRight]
  congr 1
  rw [if_congr hlow rfl rfl]
  split <;> rfl

/-- **One bit.** The register is multiplied by `X` modulo the generator. -/
theorem polynomialOf_crcShift (crc : UInt32) : polynomialOf 32 (crcShift crc).toNat =
    X * polynomialOf 32 crc.toNat + C (bit crc.toNat 0) * generator := by
  have hshift := polynomialOf_shiftRight crc.toNat_lt
  rw [toNat_crcShift, polynomialOf_xor, ← hshift, bit]
  split
  · have htwo : (2 : (ZMod 2)[X]) = 0 := CharTwo.two_eq_zero
    rw [polynomialOf_generator, C_1]
    linear_combination -(X ^ 32 : (ZMod 2)[X]) * htwo
  · rw [polynomialOf_zero, C_0, zero_mul, zero_mul, add_zero, add_zero]

/-- Equal up to a multiple of the generator. -/
def Congruent (p q : (ZMod 2)[X]) : Prop :=
  generator ∣ p - q

theorem Congruent.trans {p q r : (ZMod 2)[X]} (h : Congruent p q) (h' : Congruent q r) :
    Congruent p r := by
  have hsum := dvd_add h h'
  rwa [sub_add_sub_cancel] at hsum

theorem Congruent.mul_left {p q : (ZMod 2)[X]} (h : Congruent p q) (r : (ZMod 2)[X]) :
    Congruent (r * p) (r * q) := by
  rw [Congruent, ← mul_sub]
  exact Dvd.dvd.mul_left h r

theorem Congruent.add_right {p q : (ZMod 2)[X]} (h : Congruent p q) (r : (ZMod 2)[X]) :
    Congruent (p + r) (q + r) := by
  rwa [Congruent, add_sub_add_right_eq_sub]

theorem shifts_congruent (n : ℕ) (crc : UInt32) :
    Congruent (polynomialOf 32 (crcShift^[n] crc).toNat) (X ^ n * polynomialOf 32 crc.toNat) := by
  induction n generalizing crc with
  | zero =>
    rw [Function.iterate_zero_apply, pow_zero, one_mul, Congruent, sub_self]
    exact dvd_zero _
  | succ n ih =>
    have hstep : Congruent (polynomialOf 32 (crcShift crc).toNat)
        (X * polynomialOf 32 crc.toNat) := by
      rw [Congruent, polynomialOf_crcShift, add_sub_cancel_left]
      exact dvd_mul_left _ _
    rw [Function.iterate_succ_apply, pow_succ, mul_assoc]
    exact (ih _).trans (hstep.mul_left (X ^ n))

/-- A byte lies in the highest coefficients of a register. -/
theorem polynomialOf_byte (b : UInt8) :
    polynomialOf 32 b.toNat = X ^ 24 * polynomialOf 8 b.toNat := by
  have hzero : ∑ i ∈ Finset.range 24, C (bit b.toNat (8 + i)) * X ^ (32 - 1 - (8 + i)) =
      (0 : (ZMod 2)[X]) := by
    refine Finset.sum_eq_zero fun i _ => ?_
    rw [bit_of_lt b.toNat_lt (Nat.le_add_right 8 i), C_0, zero_mul]
  rw [polynomialOf, show 32 = 8 + 24 from rfl, Finset.sum_range_add, hzero, add_zero, polynomialOf,
    Finset.mul_sum]
  refine Finset.sum_congr rfl fun i hi => ?_
  have hi := Finset.mem_range.mp hi
  rw [mul_left_comm, ← pow_add]
  congr 2
  omega

/-- **One byte.** -/
theorem crcByte_congruent (crc : UInt32) (b : UInt8) :
    Congruent (polynomialOf 32 (crcByte crc b).toNat)
      (X ^ 8 * polynomialOf 32 crc.toNat + X ^ 32 * polynomialOf 8 b.toNat) := by
  have hshifts := shifts_congruent 8 (crc ^^^ b.toUInt32)
  rw [UInt32.toNat_xor, UInt8.toNat_toUInt32, polynomialOf_xor, polynomialOf_byte, mul_add,
    ← mul_assoc, ← pow_add] at hshifts
  exact hshifts

/-- **A message.** The register holds the polynomial of what was there
before, and behind it the one of the message times `X ^ 32`. -/
theorem register_congruent (data : Bytes) (crc : UInt32) :
    Congruent (polynomialOf 32 (data.foldl crcByte crc).toNat)
      (X ^ (8 * data.length) * polynomialOf 32 crc.toNat + X ^ 32 * messageOf data) := by
  induction data using List.reverseRecOn with
  | nil =>
    rw [List.length_nil, Nat.mul_zero, pow_zero, one_mul, messageOf, List.foldl_nil, List.foldl_nil,
      mul_zero, add_zero, Congruent, sub_self]
    exact dvd_zero _
  | append_singleton data b ih =>
    rw [List.foldl_append, List.foldl_cons, List.foldl_nil]
    refine (crcByte_congruent _ b).trans ?_
    have hbefore := (ih.mul_left (X ^ 8)).add_right (X ^ 32 * polynomialOf 8 b.toNat)
    have hmessage : messageOf (data ++ [b]) = X ^ 8 * messageOf data + polynomialOf 8 b.toNat := by
      rw [messageOf, List.foldl_append, List.foldl_cons, List.foldl_nil, messageOf]
    have hgoal : X ^ 8 * (X ^ (8 * data.length) * polynomialOf 32 crc.toNat +
          X ^ 32 * messageOf data) + X ^ 32 * polynomialOf 8 b.toNat =
        X ^ (8 * (data ++ [b]).length) * polynomialOf 32 crc.toNat +
          X ^ 32 * messageOf (data ++ [b]) := by
      rw [hmessage, List.length_append, List.length_singleton, Nat.mul_add, pow_add]
      ring
    rwa [hgoal] at hbefore

theorem degree_polynomialOf (n : ℕ) : (polynomialOf 32 n).degree < 32 := by
  rw [polynomialOf]
  refine (degree_sum_le _ _).trans_lt ?_
  rw [Finset.sup_lt_iff (by decide)]
  intro i hi
  refine (degree_C_mul_X_pow_le _ _).trans_lt ?_
  exact_mod_cast (by omega : 32 - 1 - i < 32)

theorem generator_natDegree : generator.natDegree = 32 := by
  rw [generator]
  compute_degree!

theorem generator_monic : generator.Monic := by
  rw [generator]
  monicity!

/-- **CRC-32 is the remainder** of the message after 32 ones, inverted. -/
theorem crc32_spec (data : Bytes) : polynomialOf 32 (~~~crc32 data).toNat =
    (X ^ (8 * data.length) * polynomialOf 32 0xffffffff + X ^ 32 * messageOf data) %ₘ
      generator := by
  have hcongruent := register_congruent data 0xffffffff
  obtain ⟨q, hq⟩ := hcongruent
  have hdegree : (polynomialOf 32 (data.foldl crcByte 0xffffffff).toNat).degree <
      generator.degree := by
    rw [degree_eq_natDegree generator_monic.ne_zero, generator_natDegree]
    exact degree_polynomialOf _
  have hunique := div_modByMonic_unique (-q) _ generator_monic
    ⟨(by rw [mul_neg, ← hq, ← sub_eq_add_neg, sub_sub_cancel]), hdegree⟩
  rw [crc32, UInt32.not_not]
  exact hunique.2.symm

/-! ## Adler-32 -/

/-- One more than the sum of the bytes. -/
def byteSum (data : Bytes) : ℕ :=
  1 + (data.map UInt8.toNat).sum

/-- The sum of the sums up to every byte. -/
def sumOfSums (data : Bytes) : ℕ :=
  ∑ k ∈ Finset.range data.length, byteSum (data.take (k + 1))

/-- Adler-32 of a byte string. -/
def adler32 (data : Bytes) : ℕ :=
  sumOfSums data % 65521 * 65536 + byteSum data % 65521

theorem byteSum_concat (data : Bytes) (b : UInt8) :
    byteSum (data ++ [b]) = byteSum data + b.toNat := by
  rw [byteSum, byteSum, List.map_append, List.sum_append, List.map_singleton, List.sum_singleton,
    Nat.add_assoc]

theorem sumOfSums_concat (data : Bytes) (b : UInt8) :
    sumOfSums (data ++ [b]) = sumOfSums data + byteSum (data ++ [b]) := by
  rw [sumOfSums, sumOfSums, List.length_append, List.length_singleton, Finset.sum_range_succ]
  refine congrArg₂ (· + ·) (Finset.sum_congr rfl fun k hk => ?_) ?_
  · rw [List.take_append_of_le_length (Finset.mem_range.mp hk)]
  · rw [List.take_of_length_le (by simp)]

end Checksums

end Muplar
