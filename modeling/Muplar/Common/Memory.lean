import Mathlib.Tactic.Common
import Muplar.Common.Bytes
/-!
# Memory

A memory has bytes at some of the addresses of 64 bits. Text is written
over what is there, and strings of C are read up to their NUL. That a
string ends where its NUL is has two uses: text that is already there
need not be written again, and of two texts written to one place the one
that ends first can be told from the other.
-/

namespace Muplar

/-- Bytes at addresses; an address that has none is not mapped. -/
@[ext] structure Memory where
  byte : ℕ → Option UInt8
  below : ∀ a, (byte a).isSome → a < 2 ^ 64

namespace Memory

variable {m : Memory} {p n : ℕ} {bs text : Bytes}

/-- The `n` addresses from `p` on have bytes. -/
def Mapped (m : Memory) (p n : ℕ) : Prop :=
  ∀ i < n, (m.byte (p + i)).isSome

/-- The bytes from `p` on are `bs`. -/
def Reads (m : Memory) (p : ℕ) (bs : Bytes) : Prop :=
  ∀ i b, bs[i]? = some b → m.byte (p + i) = some b

/-- The `n` bytes from `p` on. -/
def bytes (m : Memory) (p n : ℕ) : Bytes :=
  (List.range n).map fun i => (m.byte (p + i)).getD 0

/-- Bytes are written from `p` on, where the memory is mapped. -/
def overwrite (m : Memory) (p : ℕ) (bs : Bytes) : Memory where
  byte a := (m.byte a).map fun old => if p ≤ a then bs[a - p]?.getD old else old
  below a h := m.below a (by simpa using h)

/-- A memory that has `bs` from `p` on and nothing else. -/
def ofBytes (p : ℕ) (bs : Bytes) (h : p + bs.length ≤ 2 ^ 64) : Memory where
  byte a := if p ≤ a then bs[a - p]? else none
  below a ha := by
    split at ha
    · have hlen : a - p < bs.length := by simpa using ha
      omega
    · cases ha

/-! ## Reading -/

theorem Mapped.mono {k : ℕ} (h : m.Mapped p n) (hk : k ≤ n) : m.Mapped p k :=
  fun i hi => h i (Nat.lt_of_lt_of_le hi hk)

theorem Mapped.within {q k : ℕ} (h : m.Mapped p n) (hq : p ≤ q) (hk : q + k ≤ p + n) :
    m.Mapped q k := by
  intro i hi
  have hi' := h (q + i - p) (by omega)
  rwa [show p + (q + i - p) = q + i by omega] at hi'

theorem Reads.mapped (h : m.Reads p bs) : m.Mapped p bs.length := by
  intro i hi
  rw [h i bs[i] (List.getElem?_eq_getElem hi)]
  rfl

theorem Reads.append_left (h : m.Reads p (bs ++ text)) : m.Reads p bs := by
  intro i b hb
  refine h i b ?_
  obtain ⟨hi, -⟩ := List.getElem?_eq_some_iff.mp hb
  rw [List.getElem?_append_left hi]
  exact hb

theorem Reads.bytes_eq (h : m.Reads p bs) : m.bytes p bs.length = bs := by
  refine List.ext_getElem (by simp [bytes]) fun i hi hi' => ?_
  simp [bytes, h i bs[i] (List.getElem?_eq_getElem hi')]

theorem Reads.lt (h : m.Reads p bs) (hne : bs ≠ []) : p + bs.length ≤ 2 ^ 64 := by
  have hpos : 0 < bs.length := List.length_pos_of_ne_nil hne
  have hlast := m.below _ (h.mapped (bs.length - 1) (by omega))
  omega

theorem bytes_take {k : ℕ} (h : k ≤ n) : (m.bytes p n).take k = m.bytes p k := by
  rw [bytes, bytes, ← List.map_take, List.take_range, Nat.min_eq_left h]

theorem length_bytes : (m.bytes p n).length = n := by
  simp [bytes]

theorem reads_ofBytes (h : p + bs.length ≤ 2 ^ 64) : (ofBytes p bs h).Reads p bs := by
  intro i b hb
  show (if p ≤ p + i then bs[p + i - p]? else none) = some b
  rw [if_pos (Nat.le_add_right p i), Nat.add_sub_cancel_left]
  exact hb

/-! ## Writing -/

theorem byte_overwrite {i : ℕ} {b : UInt8} (hmapped : (m.byte (p + i)).isSome)
    (hb : bs[i]? = some b) : (m.overwrite p bs).byte (p + i) = some b := by
  obtain ⟨old, hold⟩ := Option.isSome_iff_exists.mp hmapped
  simp [overwrite, hold, hb]

/-- What is there already need not be written. -/
theorem overwrite_append (h : m.Reads p bs) :
    m.overwrite p (bs ++ text) = m.overwrite (p + bs.length) text := by
  ext1
  funext a
  show (m.byte a).map _ = (m.byte a).map _
  cases hold : m.byte a with
  | none => rfl
  | some old =>
    rw [Option.map_some, Option.map_some, Option.some_inj]
    by_cases hp : p ≤ a
    · rw [if_pos hp]
      rcases Nat.lt_or_ge (a - p) bs.length with hlt | hge
      · have hread := h (a - p) bs[a - p] (List.getElem?_eq_getElem hlt)
        rw [Nat.add_sub_cancel' hp, hold] at hread
        rw [if_neg (by omega), List.getElem?_append_left hlt, List.getElem?_eq_getElem hlt]
        exact (Option.some.inj hread).symm
      · rw [if_pos (by omega), List.getElem?_append_right hge, Nat.sub_sub]
    · rw [if_neg hp, if_neg (by omega)]

/-- **The shorter text shows.** Two texts without NUL leave the same
memory only if the one does not go on after the other's NUL. -/
theorem length_le_of_overwrite_eq {x y : Bytes} (hmapped : m.Mapped p (x.length + 1))
    (hy : 0 ∉ y) (heq : m.overwrite p (x ++ [0]) = m.overwrite p (y ++ [0])) :
    y.length ≤ x.length := by
  by_contra hlt
  have hlt : x.length < y.length := by omega
  have hend := hmapped x.length (Nat.lt_succ_self _)
  have hx : (m.overwrite p (x ++ [0])).byte (p + x.length) = some 0 :=
    byte_overwrite hend (by simp)
  have hy' : (m.overwrite p (y ++ [0])).byte (p + x.length) = some y[x.length] := by
    refine byte_overwrite hend ?_
    rw [List.getElem?_append_left hlt, List.getElem?_eq_getElem hlt]
  rw [heq, hy', Option.some_inj] at hx
  exact hy (hx ▸ List.getElem_mem hlt)

@[simp] theorem mapped_overwrite {q : ℕ} : (m.overwrite p bs).Mapped q n ↔ m.Mapped q n := by
  simp [Mapped, overwrite]

theorem byte_overwrite_of_outside {a : ℕ} (h : a < p ∨ p + bs.length ≤ a) :
    (m.overwrite p bs).byte a = m.byte a := by
  show (m.byte a).map _ = m.byte a
  cases m.byte a with
  | none => rfl
  | some old =>
    rw [Option.map_some, Option.some_inj]
    split
    · rw [List.getElem?_eq_none (by omega)]
      rfl
    · rfl

theorem overwrite_nil : m.overwrite p [] = m := by
  ext1
  funext a
  exact byte_overwrite_of_outside (by rw [List.length_nil]; omega)

theorem bytes_overwrite_self (h : m.Mapped p bs.length) :
    (m.overwrite p bs).bytes p bs.length = bs := by
  refine Reads.bytes_eq fun i b hb => byte_overwrite (h i ?_) hb
  exact (List.getElem?_eq_some_iff.mp hb).1

theorem bytes_congr {m' : Memory} (h : ∀ a, p ≤ a → a < p + n → m'.byte a = m.byte a) :
    m'.bytes p n = m.bytes p n := by
  refine List.map_congr_left fun i hi => ?_
  have hlt := List.mem_range.mp hi
  rw [h (p + i) (by omega) (by omega)]

/-! ## Words of 64 bits -/

/-- The word at a pointer. -/
def u64 (m : Memory) (p : UInt64) : UInt64 :=
  UInt64.ofNat (le (m.bytes p.toNat 8))

def setU64 (m : Memory) (p v : UInt64) : Memory :=
  m.overwrite p.toNat (encodeLe 8 v.toNat)

@[simp] theorem mapped_setU64 {q : ℕ} {r v : UInt64} :
    (m.setU64 r v).Mapped q n ↔ m.Mapped q n :=
  mapped_overwrite

theorem u64_setU64 {r v : UInt64} (h : m.Mapped r.toNat 8) : (m.setU64 r v).u64 r = v := by
  have hlen : (encodeLe 8 v.toNat).length = 8 := length_encodeLe 8 v.toNat
  have hbytes : (m.overwrite r.toNat (encodeLe 8 v.toNat)).bytes r.toNat
      (encodeLe 8 v.toNat).length = encodeLe 8 v.toNat :=
    bytes_overwrite_self (hlen.symm ▸ h)
  rw [hlen] at hbytes
  rw [u64, setU64, hbytes, le_encodeLe v.toNat_lt, UInt64.ofNat_toNat]

theorem byte_setU64_of_outside {r v : UInt64} {a : ℕ} (h : a < r.toNat ∨ r.toNat + 8 ≤ a) :
    (m.setU64 r v).byte a = m.byte a :=
  byte_overwrite_of_outside (by rw [length_encodeLe]; exact h)

/-- Writing back what is there changes nothing. -/
theorem setU64_u64 {r : UInt64} (h : m.Mapped r.toNat 8) : m.setU64 r (m.u64 r) = m := by
  have hlt : le (m.bytes r.toNat 8) < 2 ^ 64 := by
    have hle := le_lt (m.bytes r.toNat 8)
    rw [length_bytes] at hle
    exact hle
  have hback : encodeLe 8 (m.u64 r).toNat = m.bytes r.toNat 8 := by
    have hfield := encodeLe_le (m.bytes r.toNat 8)
    rw [length_bytes] at hfield
    rw [u64, UInt64.toNat_ofNat_of_lt' hlt, hfield]
  have hreads : m.Reads r.toNat (m.bytes r.toNat 8) := by
    intro i b hb
    obtain ⟨hi, rfl⟩ := List.getElem?_eq_some_iff.mp hb
    rw [length_bytes] at hi
    obtain ⟨old, hold⟩ := Option.isSome_iff_exists.mp (h i hi)
    simp [bytes, hold]
  rw [setU64, hback, ← List.append_nil (m.bytes r.toNat 8), overwrite_append hreads,
    overwrite_nil]

/-- Two words that share no byte. -/
def Apart (r q : UInt64) : Prop :=
  r.toNat + 8 ≤ q.toNat ∨ q.toNat + 8 ≤ r.toNat

theorem Apart.symm {r q : UInt64} (h : Apart r q) : Apart q r :=
  Or.symm h

theorem u64_setU64_of_apart {r q v : UInt64} (h : Apart r q) :
    (m.setU64 r v).u64 q = m.u64 q := by
  rw [u64, u64, bytes_congr fun a hlow hhigh => byte_setU64_of_outside ?_]
  rcases h with h | h <;> omega

/-! ## Strings -/

/-- **A pointer to a string.** It is not null, and the text at it ends
with the first NUL. -/
structure Addresses (m : Memory) (p : UInt64) (text : Bytes) : Prop where
  notNull : p ≠ 0
  noNul : 0 ∉ text
  reads : m.Reads p.toNat (text ++ [0])

/-- The bytes from an address on, up to a NUL among the first `n`. -/
def textFrom (m : Memory) : (n a : ℕ) → Option Bytes
  | 0, _ => none
  | n + 1, a =>
    (m.byte a).bind fun b =>
      if b = 0 then some [] else (m.textFrom n (a + 1)).map fun rest => b :: rest

/-- The string at a pointer, if there is one. -/
def textAt (m : Memory) (p : UInt64) : Option Bytes :=
  if p = 0 then none else m.textFrom (2 ^ 64 - p.toNat) p.toNat

theorem textFrom_eq_some_iff {a : ℕ} :
    m.textFrom n a = some text ↔
      text.length < n ∧ 0 ∉ text ∧ m.Reads a (text ++ [0]) := by
  induction n generalizing a text with
  | zero => simp [textFrom]
  | succ n ih =>
    constructor
    · intro h
      obtain ⟨b, hb, h⟩ := Option.bind_eq_some_iff.mp h
      by_cases hzero : b = 0
      · rw [if_pos hzero] at h
        cases h
        refine ⟨Nat.succ_pos n, List.not_mem_nil, fun i c hc => ?_⟩
        cases i with
        | zero => rw [hzero] at hb; simpa [hb] using hc
        | succ i => cases hc
      · rw [if_neg hzero] at h
        obtain ⟨rest, hrest, rfl⟩ := Option.map_eq_some_iff.mp h
        obtain ⟨hlen, hnoNul, hreads⟩ := ih.mp hrest
        refine ⟨Nat.succ_lt_succ hlen, ?_, fun i c hc => ?_⟩
        · exact fun hmem => (List.mem_cons.mp hmem).elim (fun h => hzero h.symm) hnoNul
        · cases i with
          | zero => simpa [hb] using hc
          | succ i =>
            have hnext := hreads i c (by simpa using hc)
            rwa [show a + 1 + i = a + (i + 1) by omega] at hnext
    · rintro ⟨hlen, hnoNul, hreads⟩
      cases text with
      | nil =>
        have hb : m.byte a = some 0 := by simpa using hreads 0 0 rfl
        simp [textFrom, hb]
      | cons b rest =>
        have hne : b ≠ 0 := fun h => hnoNul (h ▸ List.mem_cons_self)
        have hrest : 0 ∉ rest := fun h => hnoNul (List.mem_cons_of_mem b h)
        have hb : m.byte a = some b := by simpa using hreads 0 b rfl
        have htail : m.textFrom n (a + 1) = some rest := by
          refine ih.mpr ⟨Nat.lt_of_succ_lt_succ hlen, hrest, fun i c hc => ?_⟩
          have hnext := hreads (i + 1) c (by simpa using hc)
          rwa [show a + (i + 1) = a + 1 + i by omega] at hnext
        simp [textFrom, hb, htail, hne]

/-- A string ends inside the address space. -/
theorem Addresses.lt {p : UInt64} (h : m.Addresses p text) : p.toNat + text.length < 2 ^ 64 := by
  have hlt := h.reads.lt (by simp)
  rw [List.length_append, List.length_singleton] at hlt
  omega

/-- **The string that is found is the one that is there.** -/
theorem textAt_eq_some_iff {p : UInt64} : m.textAt p = some text ↔ m.Addresses p text := by
  by_cases hp : p = 0
  · rw [textAt, if_pos hp]
    exact ⟨fun h => absurd h (by simp), fun h => absurd hp h.notNull⟩
  · rw [textAt, if_neg hp, textFrom_eq_some_iff]
    constructor
    · exact fun ⟨_, hnoNul, hreads⟩ => ⟨hp, hnoNul, hreads⟩
    · intro h
      have hlt := h.lt
      exact ⟨by omega, h.noNul, h.reads⟩

end Memory

end Muplar
