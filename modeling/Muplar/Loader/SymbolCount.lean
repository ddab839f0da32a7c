import Muplar.Linker.GnuHash
import Muplar.Loader.Symbols
/-!
# The loader on the host — where a symbol table ends

The end of the table is not in the dynamic table. `gnu_hash_sym_count`
looks for the highest bucket and goes along its chain. In a section that
is well formed this is the last chain, and it ends with the last symbol.
-/

namespace Muplar

namespace Loader

open Linker (GnuHash Symbols loopLimit)

/-! ## The last chain -/

section Chains

variable {g : GnuHash} {table : Symbols} {count : ℕ}

/-- **The chain of the highest bucket is the last**, if there are hashed
symbols. -/
theorem exists_lastChain (hw : g.WellFormed table count) (hcount : 0 < count) :
    ∃ b start, b < g.nbuckets.toNat ∧
      g.Chain table count b start (g.symoffset.toNat + count) ∧
      ∀ b' < g.nbuckets.toNat, (g.buckets b').toNat ≤ start := by
  -- the bucket of the last symbol
  obtain ⟨last, hlast⟩ : ∃ last, last + 1 = g.symoffset.toNat + count :=
    ⟨g.symoffset.toNat + count - 1, by omega⟩
  have hpos := hw.buckets_pos
  have hb : table.bucketOf g last < g.nbuckets.toNat := by
    rw [Symbols.bucketOf, UInt32.toNat_mod]
    exact Nat.mod_lt _ hpos
  rcases hw.chained _ hb with ⟨start, stop, hc⟩ | ⟨-, hnone⟩
  · obtain ⟨hle, hlt⟩ := (hc.all last (by omega) (by omega)).mp rfl
    have hend := hc.last
    obtain rfl : stop = g.symoffset.toNat + count := by omega
    refine ⟨_, start, hb, hc, fun b' hb' => ?_⟩
    rcases hw.chained b' hb' with ⟨start', stop', hc'⟩ | ⟨hzero, -⟩
    · rw [hc'.bucket]
      by_contra hgt
      -- a chain behind this one would have a symbol of this one
      have hfirst := hc'.first
      have hlast' := hc'.last
      have hne := hc'.nonempty
      have hthere := (hc'.all start' hfirst (by omega)).mpr ⟨Nat.le_refl _, hne⟩
      have hhere := (hc.all start' hfirst (by omega)).mpr ⟨by omega, by omega⟩
      have hsame : b' = table.bucketOf g last := hthere.symm.trans hhere
      have hbucket := hc'.bucket
      rw [hsame, hc.bucket] at hbucket
      omega
    · rw [hzero]
      exact Nat.zero_le _
  · exact absurd rfl (hnone last (by omega) (by omega))

end Chains

/-! ## The two loops -/

section

variable {file : Bytes} {off : UInt64}

theorem ofNat_succ_eq (i : ℕ) : UInt32.ofNat i + 1 = UInt32.ofNat (i + 1) := by
  rw [UInt32.ofNat_add]
  rfl

/-- The highest of the buckets is found, if all can be read. -/
theorem maxBucket_eq {v : ℕ → UInt32} {top : UInt32} {n b : ℕ} {maxSym : UInt32}
    (hread : ∀ i, b ≤ i → i < b + n →
      readU32 file (off + (UInt32.ofNat i * 4).toUInt64) = some (v i))
    (hle : ∀ i, b ≤ i → i < b + n → v i ≤ top) (hmax : maxSym ≤ top)
    (htop : maxSym = top ∨ ∃ i, b ≤ i ∧ i < b + n ∧ v i = top) :
    maxBucket file off n (UInt32.ofNat b) maxSym = top := by
  induction n generalizing b maxSym with
  | zero =>
    rcases htop with htop | ⟨i, hi, hlt, -⟩
    · exact htop
    · omega
  | succ n ih =>
    rw [maxBucket, hread b (Nat.le_refl _) (by omega)]
    dsimp only
    rw [ofNat_succ_eq]
    have hb := hle b (Nat.le_refl _) (by omega)
    refine ih (fun i hi hlt => hread i (by omega) (by omega))
      (fun i hi hlt => hle i (by omega) (by omega)) ?_ ?_
    · split_ifs
      · exact hb
      · exact hmax
    · rcases htop with rfl | ⟨i, hi, hlt, htop⟩
      · left
        rw [if_neg (UInt32.not_lt.mpr hb)]
      · rcases Nat.eq_or_lt_of_le hi with rfl | hlater
        · left
          split_ifs with h
          · exact htop
          · exact UInt32.le_antisymm hmax (htop ▸ UInt32.not_lt.mp h)
        · exact .inr ⟨i, hlater, by omega, htop⟩

/-- A chain is gone along to behind its end. -/
theorem chainEnd_eq {v : ℕ → UInt32} {symndx : UInt32} {n i stop : ℕ} (hi : i < stop)
    (hn : stop - i ≤ n)
    (hread : ∀ k, i ≤ k → k < stop →
      readU32 file (off + (UInt32.ofNat k - symndx).toUInt64 * 4) = some (v k))
    (hmarked : ∀ k, i ≤ k → k < stop → (v k &&& 1 ≠ 0 ↔ k + 1 = stop)) :
    chainEnd file off symndx n (UInt32.ofNat i) = UInt32.ofNat stop := by
  induction n generalizing i with
  | zero => omega
  | succ n ih =>
    rw [chainEnd, hread i (Nat.le_refl _) hi, ofNat_succ_eq]
    dsimp only
    by_cases hlast : i + 1 = stop
    · rw [if_pos ((hmarked i (Nat.le_refl _) hi).mpr hlast), hlast]
    · rw [if_neg (mt (hmarked i (Nat.le_refl _) hi).mp hlast)]
      exact ih (by omega) (by omega) (fun k hk => hread k (by omega))
        fun k hk => hmarked k (by omega)

end

/-! ## The count -/

/-- The section is in the file, word by word, where the dynamic table says. -/
structure HashInFile (file : Bytes) (phdrs : List Phdr) (gnuHashVaddr off : UInt64) (g : GnuHash)
    (count : ℕ) : Prop where
  vaddr_ne : gnuHashVaddr ≠ 0
  off_eq : vaddrToFileOffset phdrs gnuHashVaddr 16 = some off
  word : ∀ k < 4 + 2 * g.bloomSize.toNat + g.nbuckets.toNat + count,
    readU32 file (off + UInt64.ofNat (4 * k)) = some (g.word k)
  small : g.nbuckets.toNat < 2 ^ 30

section

variable {file : Bytes} {phdrs : List Phdr} {vaddr off : UInt64} {g : GnuHash} {table : Symbols}
variable {count : ℕ}

theorem toUInt64_eq_ofNat (x : UInt32) : x.toUInt64 = UInt64.ofNat x.toNat := by
  rw [← UInt64.toNat_inj, UInt32.toNat_toUInt64, UInt64.toNat_ofNat',
    Nat.mod_eq_of_lt (Nat.lt_trans x.toNat_lt (by decide))]

/-- Where the buckets are. -/
theorem bucket_address (off : UInt64) (maskwords : UInt32) {i : ℕ} (hi : i < 2 ^ 30) :
    off + 16 + maskwords.toUInt64 * 8 + (UInt32.ofNat i * 4).toUInt64 =
      off + UInt64.ofNat (4 * (4 + 2 * maskwords.toNat + i)) := by
  have hindex : (UInt32.ofNat i * 4).toNat = i * 4 := by
    rw [UInt32.toNat_mul, Linker.toNat_ofNat_index (by omega)]
    exact Nat.mod_eq_of_lt (show i * 4 < 2 ^ 32 by omega)
  have hsum : 4 * (4 + 2 * maskwords.toNat + i) = 16 + maskwords.toNat * 8 + i * 4 := by omega
  rw [toUInt64_eq_ofNat, toUInt64_eq_ofNat, hindex, hsum, UInt64.ofNat_add, UInt64.ofNat_add,
    UInt64.ofNat_mul maskwords.toNat, ← UInt64.add_assoc, ← UInt64.add_assoc]
  rfl

/-- Where the chains are. -/
theorem chain_address (off : UInt64) (maskwords nbuckets x : UInt32) :
    off + 16 + maskwords.toUInt64 * 8 + nbuckets.toUInt64 * 4 + x.toUInt64 * 4 =
      off + UInt64.ofNat (4 * (4 + 2 * maskwords.toNat + nbuckets.toNat + x.toNat)) := by
  have hsum : 4 * (4 + 2 * maskwords.toNat + nbuckets.toNat + x.toNat) =
      16 + maskwords.toNat * 8 + nbuckets.toNat * 4 + x.toNat * 4 := by omega
  rw [toUInt64_eq_ofNat, toUInt64_eq_ofNat, toUInt64_eq_ofNat, hsum, UInt64.ofNat_add,
    UInt64.ofNat_add, UInt64.ofNat_add, UInt64.ofNat_mul maskwords.toNat,
    UInt64.ofNat_mul nbuckets.toNat, UInt64.ofNat_mul x.toNat, ← UInt64.add_assoc,
    ← UInt64.add_assoc, ← UInt64.add_assoc]
  rfl

end

end Loader

end Muplar
