import Mathlib.Tactic.Ring
import Muplar.Common.Bytes
/-!
# Unsigned LEB128

A natural number as bytes of seven bits each, lowest first, every byte but
the last with its high bit set. There may be more bytes than are needed.
-/

namespace Muplar

namespace Uleb128

/-- **The bytes of a number.** -/
inductive Codes : Bytes → ℕ → Prop
  | last {b : UInt8} (h : b < 0x80) : Codes [b] b.toNat
  | more {b : UInt8} {bytes : Bytes} {n : ℕ} (h : ¬b < 0x80) (hrest : Codes bytes n) :
      Codes (b :: bytes) (b.toNat % 128 + 128 * n)

/-- A reader with numbers of any size: the seven bits of a byte are put
over those that have been read. It fails at the end of the data. -/
def read (data : Bytes) (offset result shift : ℕ) : Option (ℕ × ℕ) :=
  match h : data[offset]? with
  | none => none
  | some value =>
    let result := result ||| (value.toNat &&& 0x7f) <<< shift
    if value < 0x80 then some (result, offset + 1)
    else read data (offset + 1) result (shift + 7)
termination_by data.length - offset
decreasing_by
  obtain ⟨hlt, -⟩ := List.getElem?_eq_some_iff.mp h
  omega

variable {data bytes : Bytes} {offset n : ℕ}

theorem read_of_some {value : UInt8} {result shift : ℕ} (h : data[offset]? = some value) :
    read data offset result shift =
      if value < 0x80 then some (result ||| (value.toNat &&& 0x7f) <<< shift, offset + 1)
      else read data (offset + 1) (result ||| (value.toNat &&& 0x7f) <<< shift) (shift + 7) := by
  rw [read]
  split
  · next hnone =>
    rw [h] at hnone
    cases hnone
  · next v hv =>
    rw [h] at hv
    obtain rfl := Option.some.inj hv
    rfl

/-- The bits of a byte over those below it. -/
theorem or_bits (value : UInt8) {result shift : ℕ} (h : result < 2 ^ shift) :
    result ||| (value.toNat &&& 0x7f) <<< shift = result + value.toNat % 128 * 2 ^ shift := by
  have hand : value.toNat &&& 0x7f = value.toNat % 128 :=
    Nat.and_two_pow_sub_one_eq_mod value.toNat 7
  rw [hand, Nat.or_comm, ← Nat.shiftLeft_add_eq_or_of_lt h, Nat.shiftLeft_eq, Nat.add_comm]

theorem read_codes_from (hcodes : Codes bytes n) {result shift : ℕ}
    (h : bytes <+: data.drop offset) (hresult : result < 2 ^ shift) :
    read data offset result shift =
      some (result + n * 2 ^ shift, offset + bytes.length) := by
  induction hcodes generalizing offset result shift with
  | @last b hb =>
    obtain ⟨rest, hrest⟩ := h
    have hbyte : data[offset]? = some b := by
      rw [← List.head?_drop, ← hrest]
      rfl
    have hmod : b.toNat % 128 = b.toNat := Nat.mod_eq_of_lt (UInt8.lt_iff_toNat_lt.mp hb)
    rw [read_of_some hbyte, if_pos hb, or_bits b hresult, hmod]
    rfl
  | @more b bytes n hb _ ih =>
    obtain ⟨rest, hrest⟩ := h
    have hbyte : data[offset]? = some b := by
      rw [← List.head?_drop, ← hrest]
      rfl
    have hnext : bytes <+: data.drop (offset + 1) := by
      rw [← List.drop_drop, ← hrest]
      exact ⟨rest, rfl⟩
    have hsmall : result + b.toNat % 128 * 2 ^ shift < 2 ^ (shift + 7) := by
      have hmod : b.toNat % 128 < 128 := Nat.mod_lt _ (by omega)
      have hmul : b.toNat % 128 * 2 ^ shift ≤ 127 * 2 ^ shift :=
        Nat.mul_le_mul_right _ (by omega)
      rw [Nat.pow_add]
      omega
    rw [read_of_some hbyte, if_neg hb, or_bits b hresult, ih hnext hsmall, List.length_cons,
      Nat.pow_add]
    congr 2
    · ring
    · omega

/-- **What is coded is read.** -/
theorem read_codes (hcodes : Codes bytes n) (h : bytes <+: data.drop offset) :
    read data offset 0 0 = some (n, offset + bytes.length) := by
  rw [read_codes_from hcodes h (Nat.one_pos), Nat.zero_add, Nat.pow_zero, Nat.mul_one]

theorem codes_of_read_from {result shift value stop : ℕ} (hresult : result < 2 ^ shift)
    (h : read data offset result shift = some (value, stop)) :
    ∃ bytes n, Codes bytes n ∧ bytes <+: data.drop offset ∧ value = result + n * 2 ^ shift ∧
      stop = offset + bytes.length := by
  fun_induction read data offset result shift with
  | case1 => cases h
  | case2 offset result shift b hbyte next hb =>
    have hmod : b.toNat % 128 = b.toNat := Nat.mod_eq_of_lt (UInt8.lt_iff_toNat_lt.mp hb)
    obtain ⟨rfl, rfl⟩ := Prod.mk.inj (Option.some.inj h)
    refine ⟨[b], b.toNat, .last hb, ?_, ?_, rfl⟩
    · rw [List.drop_eq_getElem?_toList_append, hbyte]
      exact List.prefix_append _ _
    · rw [← hmod]
      exact or_bits b hresult
  | case3 offset result shift b hbyte next hb ih =>
    have hmod : b.toNat % 128 < 128 := Nat.mod_lt _ (by omega)
    have hmul : b.toNat % 128 * 2 ^ shift ≤ 127 * 2 ^ shift := Nat.mul_le_mul_right _ (by omega)
    have hbits : next = result + b.toNat % 128 * 2 ^ shift := or_bits b hresult
    have hsmall : next < 2 ^ (shift + 7) := by
      rw [hbits, Nat.pow_add]
      omega
    obtain ⟨bytes, n, hcodes, hprefix, rfl, rfl⟩ := ih hsmall h
    refine ⟨b :: bytes, _, .more hb hcodes, ?_, ?_, ?_⟩
    · rw [List.drop_eq_getElem?_toList_append, hbyte]
      exact List.cons_prefix_cons.mpr ⟨rfl, hprefix⟩
    · rw [hbits, Nat.pow_add]
      ring
    · rw [List.length_cons]
      omega

/-- **What is read was coded.** -/
theorem codes_of_read {stop : ℕ} (h : read data offset 0 0 = some (n, stop)) :
    ∃ bytes, Codes bytes n ∧ bytes <+: data.drop offset ∧ stop = offset + bytes.length := by
  obtain ⟨bytes, m, hcodes, hbytes, rfl, hstop⟩ := codes_of_read_from Nat.one_pos h
  rw [Nat.zero_add, Nat.pow_zero, Nat.mul_one]
  exact ⟨bytes, hcodes, hbytes, hstop⟩

end Uleb128

end Muplar
