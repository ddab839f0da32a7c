import Mathlib.Algebra.Group.Nat.Defs
import Mathlib.Data.Nat.Notation
import Mathlib.Tactic.Common
/-!
# Unsigned 64-bit words

Rounding to a power of two by masking, as `align_down` and `align_up`
helpers do, and what the mask comes to as a number. Rounding up wraps
like every other operation. At the end, integers of 32 bits in a register.
-/

namespace Muplar

/-- `value & ~(align - 1)`. -/
def alignDownU64 (value align : UInt64) : UInt64 :=
  value &&& ~~~(align - 1)

/-- `(value + align - 1) & ~(align - 1)`. -/
def alignUpU64 (value align : UInt64) : UInt64 :=
  (value + align - 1) &&& ~~~(align - 1)

theorem alignUpU64_eq (value align : UInt64) :
    alignUpU64 value align = alignDownU64 (value + align - 1) align :=
  rfl

/-- A word is the bits a mask keeps and those it drops. -/
theorem and_not_add_and (x m : UInt64) : (x &&& ~~~m) + (x &&& m) = x := by
  apply UInt64.toBitVec_inj.mp
  rw [UInt64.toBitVec_add, BitVec.add_eq_or_of_and_eq_zero]
  · ext i
    simp only [UInt64.toBitVec_and, UInt64.toBitVec_not, BitVec.getElem_or, BitVec.getElem_and,
      BitVec.getElem_not]
    grind
  · ext i
    simp only [UInt64.toBitVec_and, UInt64.toBitVec_not, BitVec.getElem_and, BitVec.getElem_not,
      BitVec.getElem_zero]
    grind

/-- Rounding down drops the remainder. -/
theorem toNat_alignDownU64 {k : ℕ} (hk : k < 64) {a : UInt64} (ha : a.toNat = 2 ^ k)
    (x : UInt64) : (alignDownU64 x a).toNat = x.toNat - x.toNat % 2 ^ k := by
  have hpow : 2 ^ k < 2 ^ 64 := Nat.pow_lt_pow_right (by omega) hk
  have hpos : 0 < 2 ^ k := Nat.two_pow_pos k
  have hone : UInt64.toNat 1 = 1 := rfl
  have hmask : (a - 1).toNat = 2 ^ k - 1 := by
    rw [UInt64.toNat_sub, ha, hone]
    omega
  have hlow : (x &&& (a - 1)).toNat = x.toNat % 2 ^ k := by
    rw [UInt64.toNat_and, hmask, Nat.and_two_pow_sub_one_eq_mod]
  have hle : (alignDownU64 x a).toNat ≤ x.toNat := by
    rw [alignDownU64, UInt64.toNat_and]
    exact Nat.and_le_left
  have hsum := congrArg UInt64.toNat (and_not_add_and x (a - 1))
  rw [UInt64.toNat_add, hlow] at hsum
  have hrem := Nat.mod_lt x.toNat hpos
  change ((alignDownU64 x a).toNat + _) % 2 ^ 64 = _ at hsum
  omega

/-- Rounding up goes to the next multiple, in wrapping arithmetic. -/
theorem toNat_alignUpU64 {k : ℕ} (hk : k < 64) {a : UInt64} (ha : a.toNat = 2 ^ k)
    (x : UInt64) : (alignUpU64 x a).toNat =
      (x.toNat + (2 ^ k - 1)) % 2 ^ 64 - (x.toNat + (2 ^ k - 1)) % 2 ^ 64 % 2 ^ k := by
  have hpow : 2 ^ k < 2 ^ 64 := Nat.pow_lt_pow_right (by omega) hk
  have hpos : 0 < 2 ^ k := Nat.two_pow_pos k
  have hone : UInt64.toNat 1 = 1 := rfl
  have hx := x.toNat_lt
  have hsum : (x + a - 1).toNat = (x.toNat + (2 ^ k - 1)) % 2 ^ 64 := by
    rw [UInt64.toNat_sub, UInt64.toNat_add, ha, hone]
    omega
  rw [alignUpU64_eq, toNat_alignDownU64 hk ha, hsum]

/-- Rounding up that does not wrap. -/
theorem alignUpU64_bounds {k : ℕ} (hk : k < 64) {a : UInt64} (ha : a.toNat = 2 ^ k) {x : UInt64}
    (hroom : x.toNat + 2 ^ k ≤ 2 ^ 64) :
    x.toNat ≤ (alignUpU64 x a).toNat ∧ (alignUpU64 x a).toNat < x.toNat + 2 ^ k ∧
      2 ^ k ∣ (alignUpU64 x a).toNat := by
  have hpos : 0 < 2 ^ k := Nat.two_pow_pos k
  have hround := toNat_alignUpU64 hk ha x
  rw [Nat.mod_eq_of_lt (by omega)] at hround
  have hrem := Nat.mod_lt (x.toNat + (2 ^ k - 1)) hpos
  refine ⟨by omega, by omega, ?_⟩
  rw [hround]
  exact Nat.dvd_sub_mod _

/-- A multiple can be taken out of rounding up. -/
theorem alignUpU64_add {k : ℕ} (hk : k < 64) {a : UInt64} (ha : a.toNat = 2 ^ k) {m : UInt64}
    (hm : 2 ^ k ∣ m.toNat) (y : UInt64) : alignUpU64 (m + y) a = m + alignUpU64 y a := by
  apply UInt64.toNat_inj.mp
  obtain ⟨c, hc⟩ : 2 ^ k ∣ 2 ^ 64 := Nat.pow_dvd_pow 2 (by omega)
  have hpos : 0 < 2 ^ k := Nat.two_pow_pos k
  set low := 2 ^ k - 1
  have hsum : ((m.toNat + y.toNat) % 2 ^ 64 + low) % 2 ^ 64 =
      (m.toNat + (y.toNat + low) % 2 ^ 64) % 2 ^ 64 := by
    omega
  rw [toNat_alignUpU64 hk ha, UInt64.toNat_add, UInt64.toNat_add, toNat_alignUpU64 hk ha, hsum]
  generalize (y.toNat + low) % 2 ^ 64 = z
  have hrem : (m.toNat + z) % 2 ^ 64 % 2 ^ k = z % 2 ^ k := by
    rw [Nat.mod_mod_of_dvd _ ⟨c, hc⟩, Nat.add_mod, Nat.mod_eq_zero_of_dvd hm, Nat.zero_add,
      Nat.mod_mod]
  have hz := Nat.mod_le z (2 ^ k)
  have ht := Nat.mod_le ((m.toNat + z) % 2 ^ 64) (2 ^ k)
  rw [hrem] at ht ⊢
  omega

/-! ## Runs of addresses -/

/-- When a run of `n` addresses, `o` above `s`, stays inside the range of
`l` addresses from `s`: a range that wraps holds nothing, and a run that
is in the range does not wrap. -/
theorem run_mem_range_iff (s l o : UInt64) (n : ℕ) :
    (∀ k < n, s ≤ s + o + UInt64.ofNat k ∧ s + o + UInt64.ofNat k < s + l) ↔
      n = 0 ∨ s.toNat + l.toNat < 2 ^ 64 ∧ o.toNat + n ≤ l.toNat := by
  have hs := s.toNat_lt
  have hl := l.toNat_lt
  have ho := o.toNat_lt
  constructor
  · intro h
    rcases Nat.eq_zero_or_pos n with hn | hn
    · exact Or.inl hn
    right
    have hfirst := h 0 hn
    simp only [UInt64.le_iff_toNat_le, UInt64.lt_iff_toNat_lt, UInt64.toNat_add,
      UInt64.toNat_ofNat'] at hfirst
    have hroom : s.toNat + l.toNat < 2 ^ 64 ∧ o.toNat < l.toNat := by omega
    refine ⟨hroom.1, ?_⟩
    -- past the end of the range the run would go over it
    by_contra hlong
    have hlast := h (l.toNat - o.toNat) (by omega)
    simp only [UInt64.le_iff_toNat_le, UInt64.lt_iff_toNat_lt, UInt64.toNat_add,
      UInt64.toNat_ofNat'] at hlast
    omega
  · rintro (rfl | ⟨hroom, hfit⟩) k hk
    · omega
    · simp only [UInt64.le_iff_toNat_le, UInt64.lt_iff_toNat_lt, UInt64.toNat_add,
        UInt64.toNat_ofNat']
      omega

/-- An `int` that was extended to a register is its lower half. -/
theorem toInt32_signExtended (v : Int32) : v.toInt64.toUInt64.toUInt32.toInt32 = v := by
  refine Int32.toBitVec_inj.mp ?_
  show (v.toBitVec.signExtend 64).setWidth 32 = v.toBitVec
  ext i hi
  rw [BitVec.getElem_setWidth, BitVec.getLsbD_signExtend, if_pos hi]
  simp [hi]
  omega

theorem toUInt32_signExtended (v : UInt32) : v.toInt32.toInt64.toUInt64.toUInt32 = v := by
  have hlower := congrArg Int32.toUInt32 (toInt32_signExtended v.toInt32)
  rwa [UInt32.toUInt32_toInt32, UInt32.toUInt32_toInt32] at hlower

end Muplar
