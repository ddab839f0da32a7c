import Mathlib.Data.Nat.Find
import Muplar.Linker.Rela
/-!
# The linker — lookup by hash

`lookup_gnu_hash` finds a symbol by its name in a section that the static
linker made. A filter says of most names at once that they are not there;
a bucket says where the chain of a name begins; the symbols of a chain
stand one after the other, and the last is marked.

What the section promises is `WellFormed`. Under it the function is exact
(`lookupGnuHash_exact`).
-/

namespace Muplar

namespace Linker

/-! ## The section -/

/-- What `gnu_hash` points to: words, beyond the end of the section
too. -/
structure GnuHash where
  word : ℕ → UInt32

namespace GnuHash

variable (g : GnuHash)

def nbuckets : UInt32 := g.word 0
def symoffset : UInt32 := g.word 1
def bloomSize : UInt32 := g.word 2
def bloomShift : UInt32 := g.word 3

/-- `bloom`, as an array of 64-bit words. -/
def bloom (i : ℕ) : UInt64 :=
  (g.word (4 + 2 * i)).toUInt64 ||| (g.word (4 + 2 * i + 1)).toUInt64 <<< 32

/-- `buckets`, behind the filter. -/
def buckets (i : ℕ) : UInt32 :=
  g.word (4 + 2 * g.bloomSize.toNat + i)

/-- `chains`, behind the buckets. -/
def chains (i : ℕ) : UInt32 :=
  g.word (4 + 2 * g.bloomSize.toNat + g.nbuckets.toNat + i)

/-- The bits of the filter for a hash. -/
def mask (hash : UInt32) : UInt64 :=
  1 <<< (hash % 64).toUInt64 ||| 1 <<< (hash >>> g.bloomShift % 64).toUInt64

/-- The word of the filter for a hash. -/
def filter (hash : UInt32) : UInt64 :=
  g.bloom (hash / 64 % g.bloomSize).toNat

end GnuHash

/-- `gnu_hash`. -/
def gnuHash (name : Bytes) : UInt32 :=
  name.foldl (fun h c => (h <<< 5) + h + c.toUInt32) 5381

/-- The loop of `lookup_gnu_hash`, with so many turns left. -/
def chainLoop (g : GnuHash) (table : Symbols) (name : Bytes) : ℕ → UInt32 → Option ℕ
  | 0, _ => none
  | limit + 1, i =>
    let chainVal := g.chains (i - g.symoffset).toNat
    let sym := table.sym i.toNat
    if (chainVal ^^^ gnuHash name) >>> 1 = 0 ∧ sym.name < table.strsz ∧
        table.string sym.name = name then some i.toNat
    else if chainVal &&& 1 ≠ 0 then none
    else chainLoop g table name limit (i + 1)

/-- `loop_limit`. -/
def loopLimit : ℕ := 10000

/-- `lookup_gnu_hash`, on an object that has the tables: the index of the
symbol. -/
def lookupGnuHash (g : GnuHash) (table : Symbols) (name : Bytes) : Option ℕ :=
  let hash := gnuHash name
  if g.filter hash &&& g.mask hash ≠ g.mask hash then none
  else
    let bucket := g.buckets (hash % g.nbuckets).toNat
    if bucket < g.symoffset then none else chainLoop g table name loopLimit bucket

/-! ## What the section promises -/

/-- The name of the symbol at an index. -/
def Symbols.nameAt (table : Symbols) (i : ℕ) : Bytes :=
  table.string (table.sym i).name

/-- The bucket of a symbol. -/
def Symbols.bucketOf (table : Symbols) (g : GnuHash) (i : ℕ) : ℕ :=
  (gnuHash (table.nameAt i) % g.nbuckets).toNat

/-- The symbols from `start` up to `stop` are the chain of a bucket. -/
structure GnuHash.Chain (g : GnuHash) (table : Symbols) (count b start stop : ℕ) : Prop where
  first : g.symoffset.toNat ≤ start
  nonempty : start < stop
  last : stop ≤ g.symoffset.toNat + count
  bucket : (g.buckets b).toNat = start
  all : ∀ i, g.symoffset.toNat ≤ i → i < g.symoffset.toNat + count →
    (table.bucketOf g i = b ↔ start ≤ i ∧ i < stop)
  marked : ∀ i, start ≤ i → i < stop →
    (g.chains (i - g.symoffset.toNat) &&& 1 ≠ 0 ↔ i + 1 = stop)
  short : stop - start ≤ loopLimit

/-- **A section over `count` symbols.** They are defined, the filter has
the bits of each, and each stands in the chain of its bucket, with its
hash but for the lowest bit. -/
structure GnuHash.WellFormed (g : GnuHash) (table : Symbols) (count : ℕ) : Prop where
  first : 0 < g.symoffset.toNat
  room : g.symoffset.toNat + count < 2 ^ 32
  buckets_pos : 0 < g.nbuckets.toNat
  bloom_pos : 0 < g.bloomSize.toNat
  defined : ∀ i, g.symoffset.toNat ≤ i → i < g.symoffset.toNat + count →
    (table.sym i).isUndef = false ∧ (table.sym i).name < table.strsz
  filtered : ∀ i, g.symoffset.toNat ≤ i → i < g.symoffset.toNat + count →
    g.filter (gnuHash (table.nameAt i)) &&& g.mask (gnuHash (table.nameAt i)) =
      g.mask (gnuHash (table.nameAt i))
  hashed : ∀ i, g.symoffset.toNat ≤ i → i < g.symoffset.toNat + count →
    g.chains (i - g.symoffset.toNat) >>> 1 = gnuHash (table.nameAt i) >>> 1
  chained : ∀ b < g.nbuckets.toNat, (∃ start stop, g.Chain table count b start stop) ∨
    g.buckets b = 0 ∧ ∀ i, g.symoffset.toNat ≤ i → i < g.symoffset.toNat + count →
      table.bucketOf g i ≠ b

/-! ## The lookup -/

section

variable {g : GnuHash} {table : Symbols} {count b start stop i : ℕ} {name : Bytes}

theorem same_hash_iff {a b : UInt32} : (a ^^^ b) >>> 1 = 0 ↔ a >>> 1 = b >>> 1 := by
  rw [UInt32.shiftRight_xor, UInt32.xor_eq_zero_iff]

theorem toNat_ofNat_index {k : ℕ} (h : k < 2 ^ 32) : (UInt32.ofNat k).toNat = k := by
  rw [UInt32.toNat_ofNat']
  exact Nat.mod_eq_of_lt h

/-- One turn, at a symbol that is hashed. -/
theorem chainLoop_step (hw : g.WellFormed table count) (hc : g.Chain table count b start stop)
    (hlow : start ≤ i) (hhigh : i < stop) (limit : ℕ) :
    chainLoop g table name (limit + 1) (UInt32.ofNat i) =
      if table.nameAt i = name then some i
      else if i + 1 = stop then none
      else chainLoop g table name limit (UInt32.ofNat (i + 1)) := by
  have hfirst := hc.first
  have hlast := hc.last
  have hroom := hw.room
  have hi : (UInt32.ofNat i).toNat = i := toNat_ofNat_index (by omega)
  have hsub : (UInt32.ofNat i - g.symoffset).toNat = i - g.symoffset.toNat := by
    rw [UInt32.toNat_sub_of_le _ _ (UInt32.le_iff_toNat_le.mpr (by omega)), hi]
  have hsucc : UInt32.ofNat i + 1 = UInt32.ofNat (i + 1) := by
    rw [UInt32.ofNat_add]
    rfl
  have hmatch : (g.chains (i - g.symoffset.toNat) ^^^ gnuHash name) >>> 1 = 0 ∧
      (table.sym i).name < table.strsz ∧ table.string (table.sym i).name = name ↔
        table.nameAt i = name := by
    constructor
    · exact fun h => h.2.2
    · intro heq
      have hhash := hw.hashed i (by omega) (by omega)
      rw [heq] at hhash
      exact ⟨same_hash_iff.mpr hhash, (hw.defined i (by omega) (by omega)).2, heq⟩
  rw [chainLoop, hsub, hi, hsucc]
  simp only [hmatch, hc.marked i hlow hhigh]

/-- The chain is searched from an index on. -/
theorem chainLoop_eq_some_iff (hw : g.WellFormed table count)
    (hc : g.Chain table count b start stop) {limit j : ℕ} (hlow : start ≤ j) (hhigh : j < stop)
    (hlimit : stop - j ≤ limit) : chainLoop g table name limit (UInt32.ofNat j) = some i ↔
      j ≤ i ∧ i < stop ∧ table.nameAt i = name ∧ ∀ k, j ≤ k → k < i → table.nameAt k ≠ name := by
  induction limit generalizing j with
  | zero => omega
  | succ limit ih =>
    rw [chainLoop_step hw hc hlow hhigh]
    by_cases hname : table.nameAt j = name
    · rw [if_pos hname, Option.some.injEq]
      constructor
      · rintro rfl
        exact ⟨Nat.le_refl _, hhigh, hname, fun k _ _ => by omega⟩
      · rintro ⟨hle, -, -, hbefore⟩
        by_contra hne
        exact hbefore j (Nat.le_refl _) (by omega) hname
    · rw [if_neg hname]
      have hskip : ∀ {i : ℕ}, table.nameAt i = name → j ≤ i → j + 1 ≤ i := fun {i} hi hle => by
        rcases Nat.eq_or_lt_of_le hle with rfl | hlt
        · exact absurd hi hname
        · exact hlt
      by_cases hstop : j + 1 = stop
      · rw [if_pos hstop]
        constructor
        · nofun
        · rintro ⟨hle, hlt, hi, -⟩
          have hnext := hskip hi hle
          omega
      · rw [if_neg hstop, ih (by omega) (by omega) (by omega)]
        constructor
        · rintro ⟨hle, hlt, hi, hbefore⟩
          refine ⟨by omega, hlt, hi, fun k hk hki heq => ?_⟩
          exact hbefore k (hskip heq hk) hki heq
        · rintro ⟨hle, hlt, hi, hbefore⟩
          exact ⟨hskip hi hle, hlt, hi, fun k hk hki => hbefore k (by omega) hki⟩

/-- **The lookup finds the first symbol of the name**, among those that are
hashed. -/
theorem lookupGnuHash_eq_some_iff (hw : g.WellFormed table count) :
    lookupGnuHash g table name = some i ↔
      g.symoffset.toNat ≤ i ∧ i < g.symoffset.toNat + count ∧ table.nameAt i = name ∧
        ∀ k, g.symoffset.toNat ≤ k → k < i → table.nameAt k ≠ name := by
  have hpos := hw.buckets_pos
  have hlt : (gnuHash name % g.nbuckets).toNat < g.nbuckets.toNat := by
    rw [UInt32.toNat_mod]
    exact Nat.mod_lt _ hpos
  -- a symbol of the name is in the bucket of the name
  have hof : ∀ {k : ℕ}, table.nameAt k = name →
      table.bucketOf g k = (gnuHash name % g.nbuckets).toNat := fun h => by
    rw [Symbols.bucketOf, h]
  have hfilter : ∀ {k : ℕ}, g.symoffset.toNat ≤ k → k < g.symoffset.toNat + count →
      table.nameAt k = name → g.filter (gnuHash name) &&& g.mask (gnuHash name) =
        g.mask (gnuHash name) := fun hlow hhigh h => h ▸ hw.filtered _ hlow hhigh
  rw [lookupGnuHash]
  by_cases hbits : g.filter (gnuHash name) &&& g.mask (gnuHash name) = g.mask (gnuHash name)
  · rw [if_neg (not_not.mpr hbits)]
    rcases hw.chained _ hlt with ⟨start, stop, hc⟩ | ⟨hzero, hnone⟩
    · have hfirst := hc.first
      have hlast := hc.last
      have hroom := hw.room
      have hne := hc.nonempty
      have hbucket : g.buckets (gnuHash name % g.nbuckets).toNat = UInt32.ofNat start := by
        rw [← UInt32.toNat_inj, hc.bucket, toNat_ofNat_index (by omega)]
      rw [hbucket, if_neg, chainLoop_eq_some_iff hw hc (Nat.le_refl _) hne hc.short]
      · constructor
        · rintro ⟨hle, hlt, hi, hbefore⟩
          refine ⟨by omega, by omega, hi, fun k hk hki heq => ?_⟩
          exact hbefore k ((hc.all k hk (by omega)).mp (hof heq)).1 hki heq
        · rintro ⟨hlow, hhigh, hi, hbefore⟩
          obtain ⟨hle, hlt⟩ := (hc.all i hlow hhigh).mp (hof hi)
          exact ⟨hle, hlt, hi, fun k hk hki => hbefore k (by omega) hki⟩
      · rw [UInt32.not_lt, UInt32.le_iff_toNat_le, toNat_ofNat_index (by omega)]
        exact hfirst
    · have hempty : g.buckets (gnuHash name % g.nbuckets).toNat < g.symoffset := by
        rw [hzero, UInt32.lt_iff_toNat_lt]
        exact hw.first
      rw [if_pos hempty]
      constructor
      · nofun
      · rintro ⟨hlow, hhigh, hi, -⟩
        exact absurd (hof hi) (hnone i hlow hhigh)
  · rw [if_pos hbits]
    constructor
    · nofun
    · rintro ⟨hlow, hhigh, hi, -⟩
      exact absurd (hfilter hlow hhigh hi) hbits

end

/-- A section of one bucket over two symbols, `a` and `b`, behind the null
symbol. -/
def twoHashed : GnuHash where
  word
    | 0 => 1
    | 1 => 1
    | 2 => 1
    | 3 => 6
    | 4 => 0xffffffff
    | 5 => 0xffffffff
    | 6 => 1
    | 7 => gnuHash [97] &&& 0xfffffffe
    | 8 => gnuHash [98] ||| 1
    | _ => 0

/-- Its symbols. -/
def twoSymbols : Symbols where
  sym
    | 1 => ⟨1, 0x12, 5, 0x100⟩
    | 2 => ⟨3, 0x12, 5, 0x200⟩
    | _ => ⟨0, 0, 0, 0⟩
  string
    | 1 => [97]
    | 3 => [98]
    | _ => []
  strsz := 5

theorem twoHashed_wellFormed : twoHashed.WellFormed twoSymbols 2 := by
  have hcases : ∀ {p : ℕ → Prop}, p 1 → p 2 → ∀ i, twoHashed.symoffset.toNat ≤ i →
      i < twoHashed.symoffset.toNat + 2 → p i := fun {p} h1 h2 i hlow hhigh => by
    have hoff : twoHashed.symoffset.toNat = 1 := rfl
    rw [hoff] at hlow hhigh
    obtain rfl | rfl : i = 1 ∨ i = 2 := by omega
    · exact h1
    · exact h2
  refine ⟨by decide, by decide, by decide, by decide, hcases ?_ ?_, hcases ?_ ?_, hcases ?_ ?_,
    fun b hb => .inl ⟨1, 3, ?_⟩⟩
  any_goals decide
  have hzero : b = 0 := by
    have hone : twoHashed.nbuckets.toNat = 1 := rfl
    omega
  subst hzero
  refine ⟨by decide, by decide, by decide, by decide, hcases ?_ ?_, fun i hlow hhigh => ?_,
    by decide⟩
  · decide
  · decide
  · obtain rfl | rfl : i = 1 ∨ i = 2 := by omega
    · decide
    · decide

end Linker

end Muplar
