import Muplar.Common.Bytes
import Muplar.Common.Word
/-!
# The Android runtime — the guest heap

`AndroidRuntime` gives memory to the guest from one bump pointer:
`malloc` and its relatives, `operator new`, `mmap`, thread stacks, locked
bitmaps, strings and the buffers of parcels all take the next block
between `heap_bump_` and `heap_base_ + HEAP_SIZE`, in wrapping 64-bit
arithmetic, and nothing is ever given back.

`AndroidRuntime` declares the two fields again, and hides those of
`GpuBridge`. `GpuBridge::install` reserves a heap and sets its own pair;
nobody sets the pair the stubs here use, and it keeps the zeros of its
declaration. So the heap of every run is at guest address 0.

What the stubs write into their blocks is left out. A block is known by
its address, which a stub returns or stores through a pointer of the
guest.
-/

namespace Muplar

namespace Android

/-! ## State -/

/-- `heap_base_` and `heap_bump_`. -/
structure Heap where
  heapBase : UInt64
  heapBump : UInt64
  deriving DecidableEq

/-- `HEAP_SIZE`. -/
def heapSize : UInt64 := 8 * 1024 * 1024

/-- `heap_base_ + HEAP_SIZE`. -/
def Heap.limit (h : Heap) : UInt64 :=
  h.heapBase + heapSize

/-- An entry of `threads_`. -/
structure PthreadEntry where
  handle : UInt64
  stackGpa : UInt64
  stackSize : UInt64
  deriving DecidableEq

/-- An entry of `pending_pthreads_`. -/
structure PendingPthreadCall where
  handle : UInt64
  fn : UInt64
  arg : UInt64
  stackTop : UInt64
  deriving DecidableEq

/-- The fields of the runtime that its allocating stubs use, with the
hidden pair of `GpuBridge`. -/
structure Runtime where
  bridgeHeap : Heap
  heap : Heap
  nextThreadHandle : UInt64
  threads : List PthreadEntry
  pendingPthreads : List PendingPthreadCall
  deriving DecidableEq

/-- The runtime as it is declared. -/
def Runtime.initial : Runtime where
  bridgeHeap := ⟨0, 0⟩
  heap := ⟨0, 0⟩
  nextThreadHandle := 0x80000001
  threads := []
  pendingPthreads := []

/-- `GpuBridge::install`, which names its own fields. -/
def Runtime.bridgeInstall (rt : Runtime) : Runtime :=
  { rt with bridgeHeap := ⟨0x1F0000000, 0x1F0000000⟩ }

/-- `AndroidRuntime::install`: the stubs it goes on to register leave the
heap alone. -/
def Runtime.install (rt : Runtime) : Runtime :=
  rt.bridgeInstall

/-- Where every run starts. -/
def Runtime.start : Runtime :=
  Runtime.initial.install

/-! ## The bump pointer -/

/-- `(value + mask) & ~mask`. -/
def roundUp (value mask : UInt64) : UInt64 :=
  (value + mask) &&& ~~~mask

/-- What a stub answers: its return value, and the address of the block
the guest comes to know, or 0. -/
structure Reply where
  value : UInt64
  address : UInt64
  deriving DecidableEq

/-- `guest_negative_one()`. -/
def guestNegativeOne : UInt64 := 0xFFFFFFFFFFFFFFFF

def Runtime.refuse (rt : Runtime) (value : UInt64) : Runtime × Reply :=
  (rt, ⟨value, 0⟩)

/-- The step all stubs share: the block at `ptr`, if its end is not past
the end of the heap. -/
def Runtime.grant (rt : Runtime) (ptr size : UInt64) (value refused : UInt64) : Runtime × Reply :=
  if rt.heap.limit < ptr + size then rt.refuse refused
  else ({ rt with heap := { rt.heap with heapBump := ptr + size } }, ⟨value, ptr⟩)

/-! ## Stubs -/

def Runtime.malloc (rt : Runtime) (bytes : UInt64) : Runtime × Reply :=
  let size := roundUp bytes 15
  if bytes = 0 then rt.refuse 0
  else rt.grant rt.heap.heapBump size rt.heap.heapBump 0

def Runtime.calloc (rt : Runtime) (count bytes : UInt64) : Runtime × Reply :=
  let total := roundUp (count * bytes) 15
  if total = 0 then rt.refuse 0
  else rt.grant rt.heap.heapBump total rt.heap.heapBump 0

/-- `realloc`: the old block decides what is copied, not where. -/
def Runtime.realloc (rt : Runtime) (bytes : UInt64) : Runtime × Reply :=
  let size := roundUp bytes 15
  if size = 0 then rt.refuse 0
  else rt.grant rt.heap.heapBump size rt.heap.heapBump 0

/-- `s.size() + 1` for a string with its terminator. -/
def cSize (text : Bytes) : UInt64 :=
  UInt64.ofNat text.length + 1

/-- `strdup`, `strerror` and `AStatus_getMessage`. -/
def Runtime.copyText (rt : Runtime) (text : Bytes) : Runtime × Reply :=
  rt.grant rt.heap.heapBump (roundUp (cSize text) 15) rt.heap.heapBump 0

/-- `vasprintf`: the block goes to the guest through `out`. -/
def Runtime.vasprintf (rt : Runtime) (out format : UInt64) (text : Bytes) : Runtime × Reply :=
  let size := roundUp (cSize text) 15
  if out = 0 ∨ format = 0 then rt.refuse guestNegativeOne
  else if size = 0 then rt.refuse guestNegativeOne
  else rt.grant rt.heap.heapBump size (UInt64.ofNat text.length) guestNegativeOne

/-- `posix_memalign`: 22 is `EINVAL`, 12 `ENOMEM`. -/
def Runtime.posixMemalign (rt : Runtime) (out alignment bytes : UInt64) : Runtime × Reply :=
  if out = 0 ∨ alignment = 0 then rt.refuse 22
  else
    let align := max alignment 16
    let ptr := alignUpU64 rt.heap.heapBump align
    let size := roundUp bytes 15
    rt.grant ptr size 0 12

def Runtime.mmap (rt : Runtime) (length : UInt64) : Runtime × Reply :=
  let size := roundUp length 4095
  if size = 0 ∨ rt.heap.limit < rt.heap.heapBump + size then rt.refuse guestNegativeOne
  else
    let ptr := roundUp rt.heap.heapBump 4095
    rt.grant ptr size ptr guestNegativeOne

/-- `kGuestThreadStackSize`. -/
def guestThreadStackSize : UInt64 := 64 * 1024

/-- `pthread_create`: 11 is `EAGAIN`. The handle is used up either way. -/
def Runtime.pthreadCreate (rt : Runtime) (fn arg : UInt64) : Runtime × Reply :=
  let handle := rt.nextThreadHandle
  let counted := { rt with nextThreadHandle := rt.nextThreadHandle + 1 }
  let stackBase := roundUp rt.heap.heapBump 15
  let stackTop := stackBase + guestThreadStackSize
  if rt.heap.limit < stackTop then counted.refuse 11
  else
    ({ counted with
        heap := { rt.heap with heapBump := stackTop }
        threads := ⟨handle, stackBase, guestThreadStackSize⟩ :: rt.threads
        pendingPthreads := rt.pendingPthreads ++ [⟨handle, fn, arg, stackTop⟩] },
      ⟨0, stackBase⟩)

/-- `AndroidBitmap_lockPixels`: an address of 0 from `alloc_pixels` is a
failed allocation to it, whatever happened to the heap. -/
def Runtime.lockPixels (rt : Runtime) (outPixels : UInt64) : Runtime × Reply :=
  let ptr := roundUp rt.heap.heapBump 15
  if outPixels = 0 then rt.refuse 0xFFFFFFFF
  else rt.grant ptr 4 (if ptr = 0 then 0xFFFFFFFD else 0) 0xFFFFFFFD

/-- `alloc_guest`. -/
def Runtime.allocGuest (rt : Runtime) (size align : UInt64) : Runtime × Reply :=
  let mask := if align = 0 then 0 else align - 1
  let ptr := roundUp rt.heap.heapBump mask
  rt.grant ptr (roundUp size mask) ptr 0

/-- `alloc_guest_string`. -/
def Runtime.allocGuestString (rt : Runtime) (text : Bytes) : Runtime × Reply :=
  rt.allocGuest (cSize text) 16

/-- `operator new` and `operator new[]`: the process aborts where `malloc`
returns 0. -/
def Runtime.operatorNew (rt : Runtime) (bytes : UInt64) : Option (Runtime × Reply) :=
  let size := roundUp bytes 15
  if bytes = 0 ∨ rt.heap.limit < rt.heap.heapBump + size then none
  else some (rt.grant rt.heap.heapBump size rt.heap.heapBump 0)

/-- `operator new` with `nothrow`. -/
def Runtime.operatorNewNothrow (rt : Runtime) (bytes : UInt64) : Runtime × Reply :=
  let size := roundUp bytes 15
  if bytes = 0 then rt.refuse 0
  else rt.grant rt.heap.heapBump size rt.heap.heapBump 0

/-! ## Calls and runs -/

/-- A call of an allocating stub, with the arguments it uses. A stub that
reads a string has the string; the buffers of parcels are those of
`AParcel_readString`, `AParcel_readStringArray` and
`AParcel_readInt32Array`, and the length word that of
`AParcel_writeStringArray`. -/
inductive Call
  | malloc (bytes : UInt64)
  | calloc (count bytes : UInt64)
  | realloc (bytes : UInt64)
  | copyText (text : Bytes)
  | vasprintf (out format : UInt64) (text : Bytes)
  | posixMemalign (out alignment bytes : UInt64)
  | mmap (length : UInt64)
  | pthreadCreate (fn arg : UInt64)
  | lockPixels (outPixels : UInt64)
  | guestString (text : Bytes)
  | parcelBuffer
  | parcelLength
  | operatorNew (bytes : UInt64)
  | operatorNewNothrow (bytes : UInt64)
  | operatorNewArray (bytes : UInt64)
  deriving DecidableEq

/-- The number of bytes the guest asks for. -/
def Call.requested : Call → ℕ
  | .malloc bytes => bytes.toNat
  | .calloc count bytes => count.toNat * bytes.toNat
  | .realloc bytes => bytes.toNat
  | .copyText text => text.length + 1
  | .vasprintf _ _ text => text.length + 1
  | .posixMemalign _ _ bytes => bytes.toNat
  | .mmap length => length.toNat
  | .pthreadCreate _ _ => 64 * 1024
  | .lockPixels _ => 4
  | .guestString text => text.length + 1
  | .parcelBuffer => 8
  | .parcelLength => 4
  | .operatorNew bytes => bytes.toNat
  | .operatorNewNothrow bytes => bytes.toNat
  | .operatorNewArray bytes => bytes.toNat

/-- The calls whose blocks are to be aligned to sixteen bytes. -/
def Call.mallocFamily : Call → Bool
  | .malloc _ | .calloc _ _ | .realloc _ | .posixMemalign _ _ _ => true
  | .operatorNew _ | .operatorNewNothrow _ | .operatorNewArray _ => true
  | _ => false

/-- What a call does; nothing is left after `::abort()`. -/
def Runtime.step (rt : Runtime) : Call → Option (Runtime × Reply)
  | .malloc bytes => some (rt.malloc bytes)
  | .calloc count bytes => some (rt.calloc count bytes)
  | .realloc bytes => some (rt.realloc bytes)
  | .copyText text => some (rt.copyText text)
  | .vasprintf out format text => some (rt.vasprintf out format text)
  | .posixMemalign out alignment bytes => some (rt.posixMemalign out alignment bytes)
  | .mmap length => some (rt.mmap length)
  | .pthreadCreate fn arg => some (rt.pthreadCreate fn arg)
  | .lockPixels outPixels => some (rt.lockPixels outPixels)
  | .guestString text => some (rt.allocGuestString text)
  | .parcelBuffer => some (rt.allocGuest 8 8)
  | .parcelLength => some (rt.allocGuest 4 4)
  | .operatorNew bytes => rt.operatorNew bytes
  | .operatorNewNothrow bytes => some (rt.operatorNewNothrow bytes)
  | .operatorNewArray bytes => rt.operatorNew bytes

/-- A call of a run, with the heap it found and the heap it left. -/
structure Event where
  before : Heap
  call : Call
  address : UInt64
  after : Heap
  deriving DecidableEq

/-- The calls of a run, in order, up to the one that aborts. -/
def Runtime.events (rt : Runtime) : List Call → List Event
  | [] => []
  | call :: calls => match rt.step call with
    | none => []
    | some (rt', reply) => ⟨rt.heap, call, reply.address, rt'.heap⟩ :: rt'.events calls

/-! ## What a heap is to keep -/

/-- The addresses of the block an event hands out, as far as the guest
asked for them. -/
def Event.Owns (e : Event) (a : ℕ) : Prop :=
  e.address ≠ 0 ∧ e.address.toNat ≤ a ∧ a < e.address.toNat + e.call.requested

/-- **A sound heap.** The heap is not at guest address 0; every block the
run from `rt` hands out lies in it, blocks of the `malloc` family are
aligned, and no two blocks share an address; a call that hands out
nothing leaves the heap as it was. -/
structure Sound (rt : Runtime) (calls : List Call) : Prop where
  base_ne : rt.heap.heapBase ≠ 0
  inside : ∀ e ∈ rt.events calls, e.address ≠ 0 →
    rt.heap.heapBase.toNat ≤ e.address.toNat ∧
      e.address.toNat + e.call.requested ≤ rt.heap.heapBase.toNat + heapSize.toNat
  aligned : ∀ e ∈ rt.events calls, e.call.mallocFamily → 16 ∣ e.address.toNat
  apart : (rt.events calls).Pairwise fun e f => ∀ a, e.Owns a → ¬f.Owns a
  refused : ∀ e ∈ rt.events calls, e.address = 0 → e.after = e.before

/-! ## What a call does

Every stub rounds the bump pointer up, and the size it was asked for, and
takes the block if it fits. `align` and `grain` are the two roundings. -/

/-- What the address of the block is rounded to. -/
def Call.align : Call → UInt64
  | .posixMemalign _ alignment _ => max alignment 16
  | .mmap _ => 4096
  | .pthreadCreate _ _ | .lockPixels _ | .guestString _ => 16
  | .parcelBuffer => 8
  | .parcelLength => 4
  | _ => 1

/-- What the size of the block is rounded to. -/
def Call.grain : Call → UInt64
  | .mmap _ => 4096
  | .pthreadCreate _ _ | .lockPixels _ => 1
  | .parcelBuffer => 8
  | .parcelLength => 4
  | _ => 16

/-- Where a call puts its block. -/
def Call.ptr (c : Call) (h : Heap) : UInt64 :=
  alignUpU64 h.heapBump c.align

/-- How many bytes it takes. -/
def Call.size (c : Call) : UInt64 :=
  alignUpU64 (UInt64.ofNat c.requested) c.grain

/-- The two ends of a call: it is refused and leaves the heap alone, or
it takes its block. -/
inductive Call.Does (c : Call) (h : Heap) : UInt64 → Heap → Prop
  | refused : c.Does h 0 h
  | took : ¬h.limit < c.ptr h + c.size →
      c.Does h (c.ptr h) { h with heapBump := c.ptr h + c.size }

theorem alignUpU64_one (x : UInt64) : alignUpU64 x 1 = x := by
  simp [alignUpU64]

theorem roundUp_eq (x a : UInt64) : roundUp x (a - 1) = alignUpU64 x a := by
  simp [roundUp, alignUpU64, UInt64.sub_eq_add_neg, UInt64.add_assoc]

theorem cSize_eq (text : Bytes) : cSize text = UInt64.ofNat (text.length + 1) := by
  simp [cSize]

/-- The size of a call that rounds `bytes` up to a multiple of sixteen. -/
theorem Call.size_eq {c : Call} {bytes : UInt64} (hgrain : c.grain = 16)
    (hbytes : UInt64.ofNat c.requested = bytes) : c.size = roundUp bytes 15 := by
  rw [Call.size, hgrain, hbytes]
  exact (roundUp_eq _ 16).symm

/-- A call that takes the bump pointer as it is. -/
theorem Call.ptr_eq {c : Call} (halign : c.align = 1) (h : Heap) : c.ptr h = h.heapBump := by
  rw [Call.ptr, halign, alignUpU64_one]

/-- What a stub does, from the pair it returns. -/
def Call.Ends (c : Call) (rt : Runtime) (out : Runtime × Reply) : Prop :=
  c.Does rt.heap out.2.address out.1.heap

theorem Runtime.refuse_ends (c : Call) (rt : Runtime) (value : UInt64) :
    c.Ends rt (rt.refuse value) :=
  .refused

theorem Runtime.grant_ends {c : Call} {rt : Runtime} {ptr size : UInt64}
    (hptr : c.ptr rt.heap = ptr) (hsize : c.size = size) (value refused : UInt64) :
    c.Ends rt (rt.grant ptr size value refused) := by
  subst hptr hsize
  unfold Runtime.grant
  split
  · exact rt.refuse_ends c refused
  · exact .took ‹_›

/-- A stub that refuses some arguments and takes the next sixteen-byte
units otherwise. -/
theorem Runtime.unless_ends {c : Call} {rt : Runtime} {bad : Prop} [Decidable bad]
    {size : UInt64} (halign : c.align = 1) (hsize : c.size = size) (no value refused : UInt64) :
    c.Ends rt (if bad then rt.refuse no else rt.grant rt.heap.heapBump size value refused) := by
  split
  · exact rt.refuse_ends c no
  · exact rt.grant_ends (Call.ptr_eq halign rt.heap) hsize value refused

theorem Runtime.posixMemalign_ends (rt : Runtime) (out alignment bytes : UInt64) :
    (Call.posixMemalign out alignment bytes).Ends rt (rt.posixMemalign out alignment bytes) := by
  have hsize : (Call.posixMemalign out alignment bytes).size = roundUp bytes 15 :=
    Call.size_eq rfl UInt64.ofNat_toNat
  unfold Runtime.posixMemalign
  split
  · exact rt.refuse_ends _ 22
  · exact rt.grant_ends rfl hsize 0 12

theorem Runtime.mmap_ends (rt : Runtime) (length : UInt64) :
    (Call.mmap length).Ends rt (rt.mmap length) := by
  have hptr : (Call.mmap length).ptr rt.heap = roundUp rt.heap.heapBump 4095 :=
    (roundUp_eq _ 4096).symm
  have hsize : (Call.mmap length).size = roundUp length 4095 := by
    rw [Call.size, Call.requested, UInt64.ofNat_toNat]
    exact (roundUp_eq _ 4096).symm
  simp only [Runtime.mmap]
  split
  · exact rt.refuse_ends _ guestNegativeOne
  · exact rt.grant_ends hptr hsize _ guestNegativeOne

theorem Runtime.pthreadCreate_ends (rt : Runtime) (fn arg : UInt64) :
    (Call.pthreadCreate fn arg).Ends rt (rt.pthreadCreate fn arg) := by
  have hptr : (Call.pthreadCreate fn arg).ptr rt.heap = roundUp rt.heap.heapBump 15 :=
    (roundUp_eq _ 16).symm
  have hsize : (Call.pthreadCreate fn arg).size = guestThreadStackSize := by
    exact alignUpU64_one _
  simp only [Runtime.pthreadCreate, ← hptr, ← hsize]
  split
  · exact .refused
  · exact .took ‹_›

theorem Runtime.lockPixels_ends (rt : Runtime) (outPixels : UInt64) :
    (Call.lockPixels outPixels).Ends rt (rt.lockPixels outPixels) := by
  have hptr : (Call.lockPixels outPixels).ptr rt.heap = roundUp rt.heap.heapBump 15 :=
    (roundUp_eq _ 16).symm
  have hsize : (Call.lockPixels outPixels).size = 4 := by
    exact alignUpU64_one _
  simp only [Runtime.lockPixels]
  split
  · exact rt.refuse_ends _ 0xFFFFFFFF
  · exact rt.grant_ends hptr hsize _ _

theorem Runtime.allocGuest_ends {c : Call} {rt : Runtime} {size align : UInt64} (hne : align ≠ 0)
    (halign : c.align = align) (hgrain : c.grain = align) (hsize : UInt64.ofNat c.requested = size) :
    c.Ends rt (rt.allocGuest size align) := by
  have hptr : c.ptr rt.heap = roundUp rt.heap.heapBump (align - 1) := by
    rw [Call.ptr, halign, roundUp_eq]
  have hround : c.size = roundUp size (align - 1) := by
    rw [Call.size, hgrain, hsize, roundUp_eq]
  unfold Runtime.allocGuest
  rw [if_neg hne]
  exact rt.grant_ends hptr hround _ 0

theorem Runtime.operatorNew_ends {c : Call} {rt : Runtime} {bytes : UInt64}
    {out : Runtime × Reply} (halign : c.align = 1) (hsize : c.size = roundUp bytes 15)
    (h : rt.operatorNew bytes = some out) : c.Ends rt out := by
  simp only [Runtime.operatorNew] at h
  split at h
  · cases h
  · obtain rfl := Option.some.inj h
    exact rt.grant_ends (Call.ptr_eq halign rt.heap) hsize _ 0

/-- **The step lemma.** A call that returns is refused or takes its
block. -/
theorem step_ends {rt : Runtime} {c : Call} {out : Runtime × Reply} (h : rt.step c = some out) :
    c.Ends rt out := by
  have hsize : ∀ (c : Call) (bytes : UInt64), c.grain = 16 → c.requested = bytes.toNat →
      c.size = roundUp bytes 15 := by
    intro c bytes hgrain hbytes
    exact Call.size_eq hgrain (by rw [hbytes, UInt64.ofNat_toNat])
  have htext : ∀ (c : Call) (text : Bytes), c.grain = 16 → c.requested = text.length + 1 →
      c.size = roundUp (cSize text) 15 := by
    intro c text hgrain hbytes
    exact Call.size_eq hgrain (by rw [hbytes, cSize_eq])
  cases c with
  | malloc bytes =>
    obtain rfl := Option.some.inj h
    exact rt.unless_ends rfl (hsize _ bytes rfl rfl) 0 _ 0
  | calloc count bytes =>
    obtain rfl := Option.some.inj h
    have htotal : UInt64.ofNat (Call.calloc count bytes).requested = count * bytes := by
      rw [Call.requested, UInt64.ofNat_mul, UInt64.ofNat_toNat, UInt64.ofNat_toNat]
    exact rt.unless_ends rfl (Call.size_eq rfl htotal) 0 _ 0
  | realloc bytes =>
    obtain rfl := Option.some.inj h
    exact rt.unless_ends rfl (hsize _ bytes rfl rfl) 0 _ 0
  | copyText text =>
    obtain rfl := Option.some.inj h
    exact rt.grant_ends (Call.ptr_eq rfl rt.heap) (htext _ text rfl rfl) _ 0
  | vasprintf out format text =>
    obtain rfl := Option.some.inj h
    simp only [Runtime.vasprintf]
    split
    · exact rt.refuse_ends _ guestNegativeOne
    · exact rt.unless_ends rfl (htext _ text rfl rfl) _ _ _
  | posixMemalign out alignment bytes =>
    obtain rfl := Option.some.inj h
    exact rt.posixMemalign_ends out alignment bytes
  | mmap length =>
    obtain rfl := Option.some.inj h
    exact rt.mmap_ends length
  | pthreadCreate fn arg =>
    obtain rfl := Option.some.inj h
    exact rt.pthreadCreate_ends fn arg
  | lockPixels outPixels =>
    obtain rfl := Option.some.inj h
    exact rt.lockPixels_ends outPixels
  | guestString text =>
    obtain rfl := Option.some.inj h
    exact rt.allocGuest_ends (by decide) rfl rfl (cSize_eq text).symm
  | parcelBuffer =>
    obtain rfl := Option.some.inj h
    exact rt.allocGuest_ends (by decide) rfl rfl rfl
  | parcelLength =>
    obtain rfl := Option.some.inj h
    exact rt.allocGuest_ends (by decide) rfl rfl rfl
  | operatorNew bytes => exact Runtime.operatorNew_ends rfl (hsize _ bytes rfl rfl) h
  | operatorNewNothrow bytes =>
    obtain rfl := Option.some.inj h
    exact rt.unless_ends rfl (hsize _ bytes rfl rfl) 0 _ 0
  | operatorNewArray bytes => exact Runtime.operatorNew_ends rfl (hsize _ bytes rfl rfl) h

/-! ## Runs -/

variable {rt : Runtime} {calls : List Call} {e : Event}

/-- The first call of a run, and the rest of it. -/
theorem mem_events_cons {c : Call} (he : e ∈ rt.events (c :: calls)) :
    ∃ rt' reply, rt.step c = some (rt', reply) ∧
      (e = ⟨rt.heap, c, reply.address, rt'.heap⟩ ∨ e ∈ rt'.events calls) := by
  rw [Runtime.events] at he
  cases hstep : rt.step c with
  | none =>
    rw [hstep] at he
    exact absurd he List.not_mem_nil
  | some out =>
    rw [hstep] at he
    exact ⟨out.1, out.2, rfl, List.mem_cons.mp he⟩

theorem Call.Does.heapBase {c : Call} {h h' : Heap} {a : UInt64} (hd : c.Does h a h') :
    h'.heapBase = h.heapBase := by
  cases hd with
  | refused => rfl
  | took => rfl

/-- **The base never moves.** -/
theorem events_heapBase (he : e ∈ rt.events calls) : e.after.heapBase = rt.heap.heapBase := by
  induction calls generalizing rt with
  | nil => exact absurd he List.not_mem_nil
  | cons c calls ih =>
    obtain ⟨rt', reply, hstep, rfl | hlater⟩ := mem_events_cons he
    · exact (step_ends hstep).heapBase
    · rw [ih hlater]
      exact (step_ends hstep).heapBase

/-! ## The heap at address 0 -/

theorem alignUpU64_zero (a : UInt64) : alignUpU64 0 a = 0 := by
  simp [alignUpU64]

/-- A call that moves a bump pointer of 0 hands out the address 0. -/
theorem Call.Does.address_zero {c : Call} {h h' : Heap} {a : UInt64} (hd : c.Does h a h')
    (hzero : h.heapBump = 0) : a = 0 := by
  cases hd with
  | refused => rfl
  | took => rw [Call.ptr, hzero, alignUpU64_zero]

/-- **The first block is lost.** With the bump pointer at 0, the first
call that takes memory looks to the guest like one that was refused. -/
theorem first_block_lost (hzero : rt.heap.heapBump = 0) (he : e ∈ rt.events calls)
    (hmoved : e.after ≠ e.before) : ∃ f ∈ rt.events calls, f.address = 0 ∧ f.after ≠ f.before := by
  induction calls generalizing rt with
  | nil => exact absurd he List.not_mem_nil
  | cons c calls ih =>
    obtain ⟨rt', reply, hstep, hcase⟩ := mem_events_cons he
    have hdoes := step_ends hstep
    have hevents : rt.events (c :: calls) =
        ⟨rt.heap, c, reply.address, rt'.heap⟩ :: rt'.events calls := by
      rw [Runtime.events, hstep]
    rw [hevents]
    by_cases hsame : rt'.heap = rt.heap
    · -- nothing was taken yet, so the event is a later one
      rcases hcase with rfl | hlater
      · exact absurd hsame hmoved
      · obtain ⟨f, hf, hlost⟩ := ih (by rw [hsame, hzero]) hlater
        exact ⟨f, List.mem_cons_of_mem _ hf, hlost⟩
    · exact ⟨_, List.mem_cons_self, hdoes.address_zero hzero, hsame⟩

/-- **No run has a sound heap.** The heap is at address 0 from `install`
on, and stays there; a run that takes any memory at all also loses the
first block it takes. -/
theorem heap_never_sound (calls : List Call) :
    ¬Sound Runtime.start calls ∧
      (∀ e ∈ Runtime.start.events calls, e.after.heapBase = 0) ∧
      ∀ e ∈ Runtime.start.events calls, e.after ≠ e.before →
        ∃ f ∈ Runtime.start.events calls, f.address = 0 ∧ f.after ≠ f.before := by
  refine ⟨fun hsound => hsound.base_ne rfl, fun e he => ?_, fun e he hmoved => ?_⟩
  · exact events_heapBase he
  · exact first_block_lost rfl he hmoved

/-- `malloc(16)` right after `install` takes the block at address 0, and
the guest is told that there is no memory. -/
theorem malloc_at_zero :
    Runtime.start.events [.malloc 16] = [⟨⟨0, 0⟩, .malloc 16, 0, ⟨0, 16⟩⟩] ∧
      ¬Sound Runtime.start [.malloc 16] := by
  have hevents : Runtime.start.events [.malloc 16] = [⟨⟨0, 0⟩, .malloc 16, 0, ⟨0, 16⟩⟩] := by
    decide
  refine ⟨hevents, fun hsound => ?_⟩
  have hkept := hsound.refused ⟨⟨0, 0⟩, .malloc 16, 0, ⟨0, 16⟩⟩ (by rw [hevents]; simp) rfl
  exact absurd hkept (by decide)

end Android

end Muplar
