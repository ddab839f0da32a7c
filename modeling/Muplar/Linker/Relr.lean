import Mathlib.Data.List.Count
import Muplar.Common.Memory
import Muplar.Loader.Elf
/-!
# Packed relative relocations

A RELR stream lists the slots whose contents a load base is added to. An
even word is an address; the odd words after it are bitmaps, each for the
next 63 slots. Two programs walk such a stream: the linker that runs in
the guest, over pointers, and the loader on the host, over guest
addresses. The walk is the same; what is done at a slot differs, for the
host goes through calls that may fail.

The words of a stream are a list here: those the linker finds at
`obj->relr`, and those the host reads from the file.
-/

namespace Muplar

namespace Linker

/-! ## What a stream lists -/

/-- The slots of a bitmap, the `k`-th after the address `a`: bit `i` is
for the slot `a + 8 + (63 k + i - 1) * 8`. -/
def bitmapSlots (a : UInt64) (k : ℕ) (bitmap : UInt64) : List UInt64 :=
  ((List.range' 1 63).filter bitmap.toNat.testBit).map fun i =>
    a + 8 + UInt64.ofNat ((63 * k + i - 1) * 8)

/-- The slots a stream lists, after `k` bitmaps for the address `a`. -/
def relrSlotsFrom : (a : UInt64) → (k : ℕ) → List UInt64 → List UInt64
  | _, _, [] => []
  | a, k, word :: words =>
    if word &&& 1 = 0 then word :: relrSlotsFrom word 0 words
    else bitmapSlots a k word ++ relrSlotsFrom a (k + 1) words

/-- The slots of a stream, in the order they are listed. -/
def relrSlots (words : List UInt64) : List UInt64 :=
  relrSlotsFrom 0 0 words

/-- The first word is an address. -/
def StartsWithAddress (words : List UInt64) : Prop :=
  ∀ word ∈ words.head?, word &&& 1 = 0

/-- `*slot += base`. -/
def increase (base : UInt64) (m : Memory) (slot : UInt64) : Memory :=
  m.setU64 slot (m.u64 slot + base)

/-- **What a stream is to do.** At each listing the slot, moved by the
base, is increased by the base. -/
def relocated (base : UInt64) (words : List UInt64) (m : Memory) : Memory :=
  ((relrSlots words).map (· + base)).foldl (increase base) m

/-! ## The walk -/

section Walk

variable {S : Type*} (patch : S → UInt64 → S)

/-- `while (bitmap)`: at most 63 times, for the marker bit is gone. -/
def scanBitmap : (fuel : ℕ) → (bitmap s : UInt64) → S → S
  | 0, _, _, m => m
  | fuel + 1, bitmap, s, m =>
    if bitmap = 0 then m
    else scanBitmap fuel (bitmap >>> 1) (s + 8) (if bitmap &&& 1 ≠ 0 then patch m s else m)

/-- One word, with the slot the walk has come to. -/
def relrStep (base : UInt64) (at_ : UInt64 × S) (entry : UInt64) : UInt64 × S :=
  if entry &&& 1 = 0 then (entry + base + 8, patch at_.2 (entry + base))
  else (at_.1 + 63 * 8, scanBitmap patch 63 (entry >>> 1) at_.1 at_.2)

def relrWalk (base : UInt64) (words : List UInt64) (m : S) : S :=
  (words.foldl (relrStep patch base) (0, m)).2

end Walk

/-- `apply_relr` of the linker. -/
def applyRelr (base : UInt64) (relr : List UInt64) (m : Memory) : Memory :=
  relrWalk (increase base) base relr m

section Walk

variable {S : Type*} {patch : S → UInt64 → S}

theorem testBit_shiftRight_one (w : UInt64) (i : ℕ) :
    (w >>> 1).toNat.testBit i = w.toNat.testBit (i + 1) := by
  rw [UInt64.toNat_shiftRight, Nat.testBit_shiftRight, Nat.add_comm i 1]
  rfl

theorem and_one_ne_zero_iff (w : UInt64) : w &&& 1 ≠ 0 ↔ w.toNat.testBit 0 = true := by
  have hand : (w &&& 1).toNat = w.toNat % 2 := by
    rw [UInt64.toNat_and]
    exact Nat.and_one_is_mod _
  rw [Nat.testBit_zero, decide_eq_true_eq, ← hand, ne_eq, ← UInt64.toNat_inj]
  show ¬(w &&& 1).toNat = 0 ↔ _
  omega

/-- The scan patches the slots of the bits that are set, in order. -/
theorem scanBitmap_eq (fuel : ℕ) (bitmap s : UInt64) (m : S) :
    scanBitmap patch fuel bitmap s m =
      (((List.range fuel).filter bitmap.toNat.testBit).map fun i =>
        s + UInt64.ofNat (8 * i)).foldl patch m := by
  induction fuel generalizing bitmap s m with
  | zero => rfl
  | succ fuel ih =>
    have hshift : (Nat.succ : ℕ → ℕ) = fun i => i + 1 := rfl
    have hlater : (((List.range fuel).map Nat.succ).filter bitmap.toNat.testBit).map
        (fun i => s + UInt64.ofNat (8 * i)) =
          ((List.range fuel).filter (bitmap >>> 1).toNat.testBit).map
            fun i => s + 8 + UInt64.ofNat (8 * i) := by
      rw [List.filter_map, List.map_map]
      have hbits : (bitmap.toNat.testBit ∘ Nat.succ) = (bitmap >>> 1).toNat.testBit := by
        funext i
        exact (testBit_shiftRight_one bitmap i).symm
      rw [hbits]
      refine List.map_congr_left fun i _ => ?_
      show s + UInt64.ofNat (8 * (i + 1)) = s + 8 + UInt64.ofNat (8 * i)
      rw [Nat.mul_add, Nat.add_comm, UInt64.ofNat_add, UInt64.add_assoc]
      rfl
    rw [scanBitmap, List.range_succ_eq_map, List.filter_cons]
    by_cases hzero : bitmap = 0
    · have hnone : ∀ i, bitmap.toNat.testBit i = false := by
        intro i
        rw [hzero]
        exact Nat.zero_testBit i
      rw [if_pos hzero, hnone 0, if_neg Bool.false_ne_true, List.filter_eq_nil_iff.mpr]
      · rfl
      · intro i _
        rw [hnone i]
        exact Bool.false_ne_true
    · rw [if_neg hzero, ih, ← hlater]
      by_cases hbit : bitmap &&& 1 ≠ 0
      · rw [if_pos hbit, if_pos ((and_one_ne_zero_iff bitmap).mp hbit), List.map_cons,
          List.foldl_cons]
        simp
      · have hclear : ¬bitmap.toNat.testBit 0 = true :=
          fun h => hbit ((and_one_ne_zero_iff bitmap).mpr h)
        rw [if_neg hbit, if_neg hclear]

/-- The slots of a bitmap are those from where the walk has come to. -/
theorem bitmapSlots_eq (base a : UInt64) (k : ℕ) (entry : UInt64) :
    (bitmapSlots a k entry).map (· + base) =
      ((List.range 63).filter (entry >>> 1).toNat.testBit).map fun i =>
        a + base + 8 + UInt64.ofNat (63 * 8 * k) + UInt64.ofNat (8 * i) := by
  have hbits : (entry.toNat.testBit ∘ fun i => 1 + i) = (entry >>> 1).toNat.testBit := by
    funext i
    rw [testBit_shiftRight_one, Nat.add_comm i 1]
    rfl
  rw [bitmapSlots, List.range'_eq_map_range, List.filter_map, List.map_map, List.map_map, hbits]
  refine List.map_congr_left fun i _ => ?_
  show a + 8 + UInt64.ofNat ((63 * k + (1 + i) - 1) * 8) + base = _
  rw [show (63 * k + (1 + i) - 1) * 8 = 63 * 8 * k + 8 * i by omega, UInt64.ofNat_add]
  ac_rfl

variable (patch)

/-- **The walk lists the slots.** After `k` bitmaps for `a` it has come to
the slot that many windows on. -/
theorem foldl_relrStep (base : UInt64) (words : List UInt64) (a : UInt64) (k : ℕ) (m : S) :
    (words.foldl (relrStep patch base) (a + base + 8 + UInt64.ofNat (63 * 8 * k), m)).2 =
      ((relrSlotsFrom a k words).map (· + base)).foldl patch m := by
  induction words generalizing a k m with
  | nil => rfl
  | cons word words ih =>
    rw [List.foldl_cons, relrStep, relrSlotsFrom]
    by_cases haddress : word &&& 1 = 0
    · have hnext := ih word 0 (patch m (word + base))
      rw [Nat.mul_zero, show UInt64.ofNat 0 = 0 from rfl, UInt64.add_zero] at hnext
      rw [if_pos haddress, if_pos haddress, List.map_cons, List.foldl_cons]
      exact hnext
    · rw [if_neg haddress, if_neg haddress, List.map_append, List.foldl_append,
        bitmapSlots_eq, ← scanBitmap_eq, ← ih]
      rw [show 63 * 8 * (k + 1) = 63 * 8 * k + 63 * 8 by omega, UInt64.ofNat_add,
        ← UInt64.add_assoc]
      rfl

theorem relrWalk_eq (base : UInt64) {words : List UInt64} (h : StartsWithAddress words) (m : S) :
    relrWalk patch base words m = ((relrSlots words).map (· + base)).foldl patch m := by
  cases words with
  | nil => rfl
  | cons word words =>
    have haddress : word &&& 1 = 0 := h word rfl
    have hrest := foldl_relrStep patch base words word 0 (patch m (word + base))
    rw [Nat.mul_zero, show UInt64.ofNat 0 = 0 from rfl, UInt64.add_zero] at hrest
    rw [relrWalk, List.foldl_cons, relrStep, if_pos haddress, hrest, relrSlots, relrSlotsFrom,
      if_pos haddress, List.map_cons, List.foldl_cons]

end Walk

/-! ## What is left in memory -/

section Relocated

variable {base : UInt64} {m : Memory} {slots : List UInt64}

/-- A byte of no slot is left alone. -/
theorem byte_foldl_increase {x : ℕ}
    (h : ∀ slot ∈ slots, x < slot.toNat ∨ slot.toNat + 8 ≤ x) :
    (slots.foldl (increase base) m).byte x = m.byte x := by
  induction slots generalizing m with
  | nil => rfl
  | cons slot slots ih =>
    rw [List.foldl_cons, ih fun s hs => h s (List.mem_cons_of_mem _ hs), increase]
    exact Memory.byte_setU64_of_outside (h slot List.mem_cons_self)

/-- A slot that no other slot reaches into is increased once for each
listing. -/
theorem u64_foldl_increase {p : UInt64} (hmapped : m.Mapped p.toNat 8)
    (h : ∀ slot ∈ slots, slot = p ∨ Memory.Apart slot p) :
    (slots.foldl (increase base) m).u64 p =
      m.u64 p + UInt64.ofNat (slots.count p) * base := by
  induction slots generalizing m with
  | nil => simp
  | cons slot slots ih =>
    have hrest := ih (m := increase base m slot) (Memory.mapped_setU64.mpr hmapped)
      fun s hs => h s (List.mem_cons_of_mem _ hs)
    rw [List.foldl_cons, hrest, increase]
    by_cases heq : slot = p
    · have hone : UInt64.ofNat 1 * base = base := UInt64.one_mul base
      rw [heq, Memory.u64_setU64 hmapped, List.count_cons_self, UInt64.ofNat_add, UInt64.add_mul,
        hone, UInt64.add_assoc, UInt64.add_comm base]
    · have hapart := (h slot List.mem_cons_self).resolve_left heq
      rw [Memory.u64_setU64_of_apart hapart, List.count_cons_of_ne heq]

end Relocated

end Linker

namespace Loader

/-! ## The loader on the host -/

/-- `guest_read` and `guest_write` of `core/guest.h`; a read may fail. -/
structure GuestAccess where
  read : Memory → UInt64 → ℕ → Option Bytes
  write : Memory → UInt64 → Bytes → Memory

/-- Where memory is mapped it is read and written. -/
structure GuestAccess.Documented (access : GuestAccess) : Prop where
  read : ∀ m p n, m.Mapped p.toNat n → access.read m p n = some (m.bytes p.toNat n)
  write : ∀ m p bs, m.Mapped p.toNat bs.length → access.write m p bs = m.overwrite p.toNat bs

/-- `read_u64_guest`. -/
def GuestAccess.readU64 (access : GuestAccess) (m : Memory) (gpa : UInt64) : Option UInt64 :=
  (access.read m gpa 8).map fun bytes => UInt64.ofNat (le bytes)

/-- `write_u64_guest`. -/
def GuestAccess.writeU64 (access : GuestAccess) (m : Memory) (gpa value : UInt64) : Memory :=
  access.write m gpa (encodeLe 8 value.toNat)

/-- The words `read_at` gives, up to the first it does not. -/
def readWords (file : Bytes) : (count : ℕ) → (off : UInt64) → List UInt64
  | 0, _ => []
  | count + 1, off =>
    let (bytes, ok) := readAt file off 8
    if !ok then [] else u64Field bytes 0 :: readWords file count (off + 8)

/-- The words of the stream of an object. -/
def relrWords (file : Bytes) (phdrs : List Phdr) (relrVaddr relrSize : UInt64) : List UInt64 :=
  if relrVaddr = 0 ∨ relrSize = 0 then []
  else match vaddrToFileOffset phdrs relrVaddr relrSize with
    | none => []
    | some off => readWords file (relrSize.toNat / 8) off

/-- A slot that can be read is increased and counted. -/
def GuestAccess.increase (access : GuestAccess) (loadBase : UInt64) (state : Memory × ℕ)
    (gpa : UInt64) : Memory × ℕ :=
  match access.readU64 state.1 gpa with
  | none => state
  | some current => (access.writeU64 state.1 gpa (current + loadBase), state.2 + 1)

/-- `apply_direct_so_relr`, with the number of slots it patched. -/
def applyDirectSoRelr (access : GuestAccess) (file : Bytes) (phdrs : List Phdr)
    (loadBase relrVaddr relrSize : UInt64) (m : Memory) : Memory × ℕ :=
  Linker.relrWalk (access.increase loadBase) loadBase (relrWords file phdrs relrVaddr relrSize)
    (m, 0)

/-! ## The two walks -/

section Agree

variable {access : GuestAccess} {base : UInt64} {m : Memory} {slots : List UInt64}

theorem GuestAccess.increase_eq (haccess : access.Documented) {slot : UInt64}
    (hmapped : m.Mapped slot.toNat 8) (applied : ℕ) :
    access.increase base (m, applied) slot = (Linker.increase base m slot, applied + 1) := by
  have hread : access.readU64 m slot = some (m.u64 slot) := by
    rw [GuestAccess.readU64, haccess.read m slot 8 hmapped, Option.map_some]
    rfl
  have hwrite : access.writeU64 m slot (m.u64 slot + base) = Linker.increase base m slot :=
    haccess.write m slot _ (by rw [length_encodeLe]; exact hmapped)
  simp only [GuestAccess.increase, hread, hwrite]

/-- Where every slot is mapped no call fails. -/
theorem foldl_access_increase (haccess : access.Documented)
    (hmapped : ∀ slot ∈ slots, m.Mapped slot.toNat 8) (applied : ℕ) :
    slots.foldl (access.increase base) (m, applied) =
      (slots.foldl (Linker.increase base) m, applied + slots.length) := by
  induction slots generalizing m applied with
  | nil => rfl
  | cons slot slots ih =>
    have hrest : ∀ s ∈ slots, (Linker.increase base m slot).Mapped s.toNat 8 :=
      fun s hs => Memory.mapped_setU64.mpr (hmapped s (List.mem_cons_of_mem _ hs))
    rw [List.foldl_cons, List.foldl_cons,
      GuestAccess.increase_eq haccess (hmapped slot List.mem_cons_self), ih hrest,
      List.length_cons, Nat.add_assoc, Nat.add_comm 1]

end Agree

/-! ## A stream of two words -/

/-- Access to all that is mapped. -/
def plainAccess : GuestAccess where
  read m p n := some (m.bytes p.toNat n)
  write m p bs := m.overwrite p.toNat bs

/-- A file that is a stream: an address, and a bitmap for the slot after
the next one. -/
def streamFile : Bytes :=
  encodeLe 8 16 ++ encodeLe 8 5

def streamPhdr : Phdr where
  type := ptLoad
  flags := 4
  offset := 0
  vaddr := 0x1000
  filesz := 16
  memsz := 16

/-- The memory from the first slot to the last. -/
def streamMemory : Memory :=
  .ofBytes 0x1010 (List.replicate 24 0) (by decide)

end Loader

end Muplar
