import Muplar.Android.Heap
/-!
# The Android runtime — the heap of the bridge

`GpuBridge::install` reserves a heap and maps it, and two of the bridge's
own stubs take memory from it: `glMapBufferRange`, whose block is filled
with zeros, and `glGetStringi`, whose block is a string of the host. The
blocks are never given back.

Here the arithmetic is right: the bump pointer stays a multiple of sixteen
between the ends of the heap, whatever is asked for, so no sum wraps
(`bridge_blocks_sound`).
-/

namespace Muplar

namespace Android

/-! ## The two stubs -/

/-- A string of the host, shorter than `max_size()`. -/
structure HostString where
  text : Bytes
  length_lt : text.length < 2 ^ 63

/-- A call of a stub that takes memory: the length that is asked for, or
what the host answers. -/
inductive BridgeCall
  | glMapBufferRange (length : UInt64)
  | glGetStringi (raw : Option HostString)

def Heap.glMapBufferRange (h : Heap) (length : UInt64) : Heap × UInt64 :=
  let len := min length (1024 * 1024)
  let ptr := roundUp h.heapBump 15
  let size := roundUp len 15
  if len = 0 ∨ h.limit < ptr + size then (h, 0)
  else ({ h with heapBump := ptr + size }, ptr)

def Heap.glGetStringi (h : Heap) : Option HostString → Heap × UInt64
  | none => (h, 0)
  | some raw =>
    let size := roundUp (cSize raw.text) 15
    if h.limit < h.heapBump + size then (h, 0)
    else ({ h with heapBump := h.heapBump + size }, h.heapBump)

/-- The heap a call leaves, and the address it returns. -/
def Heap.bridge (h : Heap) : BridgeCall → Heap × UInt64
  | .glMapBufferRange length => h.glMapBufferRange length
  | .glGetStringi raw => h.glGetStringi raw

/-- How many bytes a call writes to its block. -/
def BridgeCall.written : BridgeCall → ℕ
  | .glMapBufferRange length => (roundUp (min length (1024 * 1024)) 15).toNat
  | .glGetStringi raw => raw.elim 0 (·.text.length + 1)

/-- What a call wrote, and where. -/
structure Block where
  start : ℕ
  size : ℕ

/-- The blocks of a run, in order; 0 is no address. -/
def Heap.blocks (h : Heap) : List BridgeCall → List Block
  | [] => []
  | call :: calls =>
    let (after, address) := h.bridge call
    (if address = 0 then [] else [⟨address.toNat, call.written⟩]) ++ after.blocks calls

/-! ## One call -/

/-- The heap at the address where it is reserved, with a bump pointer that
is aligned. -/
structure Heap.Reserved (h : Heap) : Prop where
  base : h.heapBase = 0x1F0000000
  low : 0x1F0000000 ≤ h.heapBump.toNat
  high : h.heapBump.toNat ≤ 0x1F0800000
  aligned : 16 ∣ h.heapBump.toNat

/-- A call leaves the heap alone and returns 0, or its block lies between
the bump pointer it found and the one it left. -/
structure Heap.Advances (h : Heap) (written : ℕ) (after : Heap × UInt64) : Prop where
  reserved : after.1.Reserved
  took : after = (h, 0) ∨
    after.2 = h.heapBump ∧ h.heapBump.toNat + written ≤ after.1.heapBump.toNat

section

variable {h : Heap}

/-- The block at the bump pointer. -/
theorem Heap.Reserved.take (hr : h.Reserved) {size : UInt64} {written : ℕ}
    (hdvd : 16 ∣ size.toNat) (hsize : size.toNat < 2 ^ 63 + 16) (hwritten : written ≤ size.toNat)
    (hfits : ¬h.limit < h.heapBump + size) :
    h.Advances written ({ h with heapBump := h.heapBump + size }, h.heapBump) := by
  have hlow := hr.low
  have hhigh := hr.high
  have hsum : (h.heapBump + size).toNat = h.heapBump.toNat + size.toNat := by
    rw [UInt64.toNat_add]
    exact Nat.mod_eq_of_lt (by omega)
  have hlimit : h.limit.toNat = 0x1F0800000 := by
    rw [Heap.limit, hr.base]
    rfl
  rw [UInt64.lt_iff_toNat_lt, hlimit, hsum] at hfits
  refine ⟨⟨hr.base, ?_, ?_, ?_⟩, .inr ⟨rfl, ?_⟩⟩
  · exact Nat.le_trans hlow (by rw [hsum]; omega)
  · exact hsum ▸ Nat.not_lt.mp hfits
  · exact hsum ▸ Nat.dvd_add hr.aligned hdvd
  · rw [hsum]
    omega

theorem roundUp_bounds {x : UInt64} (hx : x.toNat ≤ 2 ^ 63) : x.toNat ≤ (roundUp x 15).toNat ∧
    (roundUp x 15).toNat < x.toNat + 16 ∧ 16 ∣ (roundUp x 15).toNat := by
  rw [show (15 : UInt64) = 16 - 1 from rfl, roundUp_eq]
  exact alignUpU64_bounds (k := 4) (by omega) rfl (by omega)

/-- **One call** advances the bump pointer by its block, or not at all. -/
theorem Heap.Reserved.bridge (hr : h.Reserved) (call : BridgeCall) :
    h.Advances call.written (h.bridge call) := by
  have hrefused : ∀ {written : ℕ}, h.Advances written (h, 0) := ⟨hr, .inl rfl⟩
  have hhigh := hr.high
  have haligned := hr.aligned
  cases call with
  | glMapBufferRange length =>
    have hlen : (min length (1024 * 1024)).toNat ≤ 2 ^ 20 := by
      change (if length ≤ 1024 * 1024 then length else 1024 * 1024).toNat ≤ _
      split_ifs with hle
      · exact UInt64.le_iff_toNat_le.mp hle
      · exact Nat.le_refl _
    have hsize := roundUp_bounds (x := min length (1024 * 1024)) (by omega)
    -- the bump pointer is a multiple of sixteen already
    have hptr : roundUp h.heapBump 15 = h.heapBump := by
      have hbump := roundUp_bounds (x := h.heapBump) (by omega)
      rw [← UInt64.toNat_inj]
      omega
    change h.Advances _ (h.glMapBufferRange length)
    simp only [Heap.glMapBufferRange, hptr]
    split_ifs with hno
    · exact hrefused
    · exact hr.take hsize.2.2 (by omega) (Nat.le_refl _) fun hfull => hno (.inr hfull)
  | glGetStringi raw =>
    cases raw with
    | none => exact hrefused
    | some raw =>
      have hshort := raw.length_lt
      have hlen : (cSize raw.text).toNat = raw.text.length + 1 := by
        rw [cSize_eq]
        exact UInt64.toNat_ofNat_of_lt' (show _ < 2 ^ 64 by omega)
      have hsize := roundUp_bounds (x := cSize raw.text) (by omega)
      change h.Advances (raw.text.length + 1) (h.glGetStringi (some raw))
      simp only [Heap.glGetStringi]
      split_ifs with hfull
      · exact hrefused
      · exact hr.take hsize.2.2 (by omega) (by omega) hfull

/-! ## Every run -/

/-- The blocks of a run lie above the bump pointer, one above the other. -/
theorem Heap.Reserved.blocks (hr : h.Reserved) (calls : List BridgeCall) :
    (∀ b ∈ h.blocks calls, h.heapBump.toNat ≤ b.start ∧ b.start + b.size ≤ 0x1F0800000 ∧
      16 ∣ b.start) ∧
      (h.blocks calls).Pairwise fun b later => b.start + b.size ≤ later.start := by
  induction calls generalizing h with
  | nil => exact ⟨fun b hb => absurd hb List.not_mem_nil, .nil⟩
  | cons call calls ih =>
    have hone := hr.bridge call
    rw [Heap.blocks]
    generalize h.bridge call = after at hone
    obtain ⟨hall, hapart⟩ := ih hone.reserved
    dsimp only
    rcases hone.took with rfl | ⟨haddress, hends⟩
    · exact ⟨hall, hapart⟩
    · have hlow := hr.low
      have hne : after.2 ≠ 0 := fun hzero => by
        rw [haddress] at hzero
        rw [hzero] at hlow
        exact absurd hlow (by decide)
      rw [if_neg hne, haddress, List.singleton_append]
      have hhigh := hone.reserved.high
      refine ⟨List.forall_mem_cons.mpr ⟨⟨Nat.le_refl _, ?_, hr.aligned⟩, fun b hb => ?_⟩,
        .cons (fun b hb => ?_) hapart⟩
      · dsimp only
        omega
      · have := (hall b hb).1
        exact ⟨by omega, (hall b hb).2⟩
      · have := (hall b hb).1
        dsimp only
        omega

end

/-- **The blocks of the bridge.** Whatever is asked for, in any order,
every byte the two stubs write lies in the heap that was mapped, no two
blocks share a byte, and every block is aligned to sixteen bytes. -/
theorem bridge_blocks_sound (calls : List BridgeCall) :
    (∀ b ∈ Runtime.start.bridgeHeap.blocks calls, 0x1F0000000 ≤ b.start ∧
      b.start + b.size ≤ 0x1F0000000 + heapSize.toNat ∧ 16 ∣ b.start) ∧
      (Runtime.start.bridgeHeap.blocks calls).Pairwise fun b later =>
        b.start + b.size ≤ later.start := by
  have hreserved : Runtime.start.bridgeHeap.Reserved := ⟨rfl, by decide, by decide, by decide⟩
  exact hreserved.blocks calls

end Android

end Muplar
