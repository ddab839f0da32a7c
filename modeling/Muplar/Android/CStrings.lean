import Mathlib.Data.List.TakeWhile
import Muplar.Common.Memory
import Muplar.Common.Search
import Muplar.Common.Text
import Muplar.Android.Heap
/-!
# The Android runtime — strings of the guest

The stubs for `strlen` and its relatives, and the one for
`glShaderSource`, do not work in guest memory. They copy their strings to
the host first, all through `guest_read_string`, whose buffer has room
for 511 bytes and the terminator. What comes after is that of the C
function, for the string that was copied.

So a string of more than 511 bytes is cut. This does not always show: the
order of two strings is decided where they first differ, and a needle may
be found early. What follows is the exact condition for each stub.

The guest's memory is reached through functions that are not part of the
repository. They are parameters here, with what is asked of them.
-/

namespace Muplar

namespace Android

/-! ## Reaching guest memory -/

/-- The functions of `core/guest.h` that the stubs call, and the number
`std::string::compare` gives. `guestReadStr` is the text in the buffer
before its terminator. -/
structure GuestApi where
  guestReadStr : Memory → UInt64 → ℕ → Bytes
  guestRead : Memory → UInt64 → ℕ → Bytes
  guestWrite : Memory → UInt64 → Bytes → Memory
  compare : Bytes → Bytes → Int32

/-- What only the sign of an `int` says. -/
def signOf (value : Int32) : Ordering :=
  if value < 0 then .lt else if value = 0 then .eq else .gt

/-- **What the functions are documented to do.** At a string,
`guest_read_str` copies up to `size - 1` bytes of it and terminates them;
where memory is mapped it is read and written; the sign of `compare` is
the order of the two texts. -/
structure GuestApi.Documented (api : GuestApi) : Prop where
  readStr : ∀ m p text size, m.Addresses p text → 0 < size →
    api.guestReadStr m p size = text.take (size - 1)
  read : ∀ m p n, m.Mapped p.toNat n → api.guestRead m p n = m.bytes p.toNat n
  write : ∀ m p bs, m.Mapped p.toNat bs.length → api.guestWrite m p bs = m.overwrite p.toNat bs
  order : ∀ s t, signOf (api.compare s t) = compareBytes s t

/-- `guest_read_string`, of `AndroidRuntime` and of `GpuBridge`. -/
def GuestApi.guestReadString (api : GuestApi) (m : Memory) (gpa : UInt64) : Bytes :=
  if gpa = 0 then [] else api.guestReadStr m gpa 512

/-- `guest_read_u64`. -/
def GuestApi.guestReadU64 (api : GuestApi) (m : Memory) (gpa : UInt64) : UInt64 :=
  UInt64.ofNat (le (api.guestRead m gpa 8))

/-! ## Stubs -/

/-- The guest's memory, and the runtime that serves it. -/
structure Guest where
  memory : Memory
  runtime : Runtime

/-- What a stub returns, and the guest as it leaves it. `passed` is what
goes to the host's `glShaderSource`. -/
structure StubReturn where
  value : UInt64
  guest : Guest
  passed : List Bytes := []

section Stubs

variable (api : GuestApi) (g : Guest)

/-- `s.c_str()`, with `s.size() + 1` bytes. -/
def cStr (text : Bytes) : Bytes :=
  text ++ [0]

def GuestApi.strlen (s : UInt64) : StubReturn where
  value := UInt64.ofNat (api.guestReadString g.memory s).length
  guest := g

def GuestApi.strcmp (s t : UInt64) : StubReturn where
  value := (api.compare (api.guestReadString g.memory s)
    (api.guestReadString g.memory t)).toInt64.toUInt64
  guest := g

/-- `strncmp`: `compare(0, n, s2, 0, n)` cuts both texts. -/
def GuestApi.strncmp (s t n : UInt64) : StubReturn where
  value := (api.compare ((api.guestReadString g.memory s).take n.toNat)
    ((api.guestReadString g.memory t).take n.toNat)).toInt64.toUInt64
  guest := g

def GuestApi.strcpy (dst src : UInt64) : StubReturn where
  value := dst
  guest :=
    { g with memory := api.guestWrite g.memory dst (cStr (api.guestReadString g.memory src)) }

def GuestApi.strcat (dst src : UInt64) : StubReturn where
  value := dst
  guest :=
    { g with
      memory := api.guestWrite g.memory dst
        (cStr (api.guestReadString g.memory dst ++ api.guestReadString g.memory src)) }

/-- The heap has no room for a text. -/
def Heap.full (h : Heap) (text : Bytes) : Bool :=
  h.limit < h.heapBump + roundUp (cSize text) 15

def GuestApi.strdup (s : UInt64) : StubReturn :=
  let text := api.guestReadString g.memory s
  let ptr := g.runtime.heap.heapBump
  if g.runtime.heap.full text then { value := 0, guest := g }
  else
    { value := ptr
      guest :=
        { memory := api.guestWrite g.memory ptr (cStr text)
          runtime := (g.runtime.copyText text).1 } }

/-- `pos == std::string::npos ? 0 : a[0] + pos`. -/
def foundAt (haystack : UInt64) : Option ℕ → UInt64
  | none => 0
  | some pos => haystack + UInt64.ofNat pos

def GuestApi.strstr (haystack needle : UInt64) : StubReturn where
  value :=
    if haystack = 0 || needle = 0 then 0
    else
      let text := api.guestReadString g.memory haystack
      let sought := api.guestReadString g.memory needle
      if sought.isEmpty then haystack else foundAt haystack (find text sought 0)
  guest := g

/-- `glShaderSource`. The lengths are not read, and the host is given
none. A negative count makes `std::vector` throw. -/
def GuestApi.glShaderSource (count : Int32) (strings _lengths : UInt64) : Option StubReturn :=
  if count < 0 then none
  else some
    { value := 0
      guest := g
      passed := (List.range count.toInt.toNat).map fun i =>
        api.guestReadString g.memory
          (api.guestReadU64 g.memory (strings + UInt64.ofNat (8 * i))) }

end Stubs

/-! ## Calls -/

/-- A pointer, and the string it points to. -/
structure CString where
  ptr : UInt64
  text : Bytes

/-- A source of a shader, with its entry in the array of lengths. -/
structure ShaderString where
  source : CString
  length : Int32

/-- A call of a stub. With a pointer goes the string that is there. -/
inductive StringCall
  | strlen (s : CString)
  | strcmp (s t : CString)
  | strncmp (s t : CString) (n : UInt64)
  | strcpy (dst : UInt64) (src : CString)
  | strcat (dst src : CString)
  | strdup (s : CString)
  | strstr (haystack needle : CString)
  | glShaderSource (strings lengths : UInt64) (sources : List ShaderString)

def GuestApi.call (api : GuestApi) (g : Guest) : StringCall → Option StubReturn
  | .strlen s => some (api.strlen g s.ptr)
  | .strcmp s t => some (api.strcmp g s.ptr t.ptr)
  | .strncmp s t n => some (api.strncmp g s.ptr t.ptr n)
  | .strcpy dst src => some (api.strcpy g dst src.ptr)
  | .strcat dst src => some (api.strcat g dst.ptr src.ptr)
  | .strdup s => some (api.strdup g s.ptr)
  | .strstr haystack needle => some (api.strstr g haystack.ptr needle.ptr)
  | .glShaderSource strings lengths sources =>
    api.glShaderSource g (Int32.ofNat sources.length) strings lengths

def Guest.Holds (g : Guest) (s : CString) : Prop :=
  g.memory.Addresses s.ptr s.text

/-- The heap is memory of the guest, and the bump pointer is in it. -/
structure Guest.HeapReady (g : Guest) : Prop where
  base : g.runtime.heap.heapBase.toNat + heapSize.toNat + 1024 < 2 ^ 64
  low : g.runtime.heap.heapBase ≤ g.runtime.heap.heapBump
  high : g.runtime.heap.heapBump ≤ g.runtime.heap.limit
  mapped : g.memory.Mapped g.runtime.heap.heapBase.toNat heapSize.toNat

/-- An entry of the arrays `glShaderSource` is given. -/
structure ShaderString.Listed (g : Guest) (strings lengths : UInt64) (i : ℕ) (x : ShaderString) :
    Prop where
  source : g.Holds x.source
  pointer : g.memory.Reads (strings.toNat + 8 * i) (encodeLe 8 x.source.ptr.toNat)
  length : lengths ≠ 0 → g.memory.Reads (lengths.toNat + 4 * i) (encodeLe 4 x.length.toUInt32.toNat)
  mapped : g.memory.Mapped x.source.ptr.toNat x.length.toInt.toNat

/-- What the C functions ask of their caller: the pointers point to
strings, and there is room where one is to be written. -/
def StringCall.Valid (g : Guest) : StringCall → Prop
  | .strlen s => g.Holds s
  | .strcmp s t => g.Holds s ∧ g.Holds t
  | .strncmp s t _ => g.Holds s ∧ g.Holds t
  | .strcpy dst src => g.Holds src ∧ g.memory.Mapped dst.toNat (src.text.length + 1)
  | .strcat dst src => g.Holds dst ∧ g.Holds src ∧
      g.memory.Mapped dst.ptr.toNat (dst.text.length + src.text.length + 1)
  | .strdup s => g.Holds s ∧ g.HeapReady
  | .strstr haystack needle => g.Holds haystack ∧ g.Holds needle
  | .glShaderSource strings lengths sources => sources.length < 2 ^ 31 ∧
      ∀ i (x : ShaderString), sources[i]? = some x → x.Listed g strings lengths i

/-! ## The C functions -/

/-- The text `glShaderSource` is to take: by its length, or up to the NUL
where there is no length or a negative one. -/
def ShaderString.delimited (m : Memory) (lengths : UInt64) (x : ShaderString) : Bytes :=
  if lengths = 0 ∨ x.length < 0 then x.source.text
  else m.bytes x.source.ptr.toNat x.length.toInt.toNat

/-- **What the C function does.** The strings are those in memory, as far
as their NUL; of a comparison only the sign is defined; `strdup` may find
no memory, and otherwise returns a new block that has the string. -/
def StringCall.Conforms (g : Guest) (out : StubReturn) : StringCall → Prop
  | .strlen s => out.value.toNat = s.text.length ∧ out.guest = g
  | .strcmp s t =>
      signOf out.value.toUInt32.toInt32 = compareBytes s.text t.text ∧ out.guest = g
  | .strncmp s t n =>
      signOf out.value.toUInt32.toInt32 =
        compareBytes (s.text.take n.toNat) (t.text.take n.toNat) ∧ out.guest = g
  | .strcpy dst src =>
      out.value = dst ∧
        out.guest = { g with memory := g.memory.overwrite dst.toNat (cStr src.text) }
  | .strcat dst src =>
      out.value = dst.ptr ∧ out.guest =
        { g with memory := g.memory.overwrite (dst.ptr.toNat + dst.text.length) (cStr src.text) }
  | .strdup s =>
      out.value = 0 ∧ out.guest = g ∨
        out.value ≠ 0 ∧ out.guest.memory = g.memory.overwrite out.value.toNat (cStr s.text) ∧
          g.runtime.heap.heapBump ≤ out.value ∧
          out.value.toNat + s.text.length + 1 ≤ out.guest.runtime.heap.heapBump.toNat
  | .strstr haystack needle =>
      out.value = foundAt haystack.ptr (search needle.text haystack.text) ∧ out.guest = g
  | .glShaderSource _ lengths sources =>
      out.passed = sources.map (·.delimited g.memory lengths) ∧ out.guest = g

/-! ## Where the cut does not show -/

/-- The number of bytes `glShaderSource` is to take. -/
def ShaderString.wanted (lengths : UInt64) (x : ShaderString) : ℕ :=
  if lengths = 0 ∨ x.length < 0 then x.source.text.length else x.length.toInt.toNat

/-- **The strings fit.** What is measured or copied has at most 511
bytes; strings that are compared are the same, or differ in their first
511 bytes; a needle that is there is found in the first 511 bytes or at
the start, and a needle of more than 511 bytes is either at the start or
not even with its first 511 bytes; a source of a shader is wanted up to
its NUL, or for 511 bytes if it is longer. A copy by `strdup` that has no
room is refused all the same, and one that has is not to be at 0. -/
def StringCall.Fits (g : Guest) : StringCall → Prop
  | .strlen s => s.text.length ≤ 511
  | .strcmp s t => s.text.take 511 = t.text.take 511 → s.text = t.text
  | .strncmp s t n => s.text.take 511 = t.text.take 511 →
      s.text.take n.toNat = t.text.take n.toNat
  | .strcpy _ src => src.text.length ≤ 511
  | .strcat dst src => dst.text.length ≤ 511 ∧ src.text.length ≤ 511
  | .strdup s => g.runtime.heap.full (s.text.take 511) = true ∨
      g.runtime.heap.heapBump ≠ 0 ∧ s.text.length ≤ 511
  | .strstr haystack needle =>
      (needle.text <:+: haystack.text →
        needle.text <:+: haystack.text.take 511 ∨ needle.text <+: haystack.text) ∧
      (511 < needle.text.length → needle.text.take 511 <+: haystack.text →
        needle.text <+: haystack.text)
  | .glShaderSource _ lengths sources =>
      ∀ x ∈ sources, x.wanted lengths = min x.source.text.length 511

/-! ## Stub by stub -/

section Stubs

variable {api : GuestApi} {g : Guest}

/-- **What is copied is the first 511 bytes.** -/
theorem guestReadString_eq (hapi : api.Documented) {m : Memory} {p : UInt64} {text : Bytes}
    (h : m.Addresses p text) : api.guestReadString m p = text.take 511 := by
  rw [GuestApi.guestReadString, if_neg h.notNull, hapi.readStr m p text 512 h (by omega)]

theorem Guest.Holds.read (hapi : api.Documented) {s : CString} (hs : g.Holds s) :
    api.guestReadString g.memory s.ptr = s.text.take 511 :=
  guestReadString_eq hapi hs

theorem strlen_conforms_iff (hapi : api.Documented) {s : CString} (hs : g.Holds s) :
    StringCall.Conforms g (api.strlen g s.ptr) (.strlen s) ↔ s.text.length ≤ 511 := by
  have hlt := Memory.Addresses.lt hs
  have hvalue : (api.strlen g s.ptr).value.toNat = min 511 s.text.length := by
    rw [GuestApi.strlen, hs.read hapi, List.length_take, UInt64.toNat_ofNat_of_lt']
    have hsize : UInt64.size = 2 ^ 64 := rfl
    omega
  show (api.strlen g s.ptr).value.toNat = s.text.length ∧ g = g ↔ _
  rw [hvalue]
  constructor
  · rintro ⟨heq, -⟩
    omega
  · exact fun h => ⟨by omega, rfl⟩

/-- The order of what is left of two texts is right, unless the cut makes
the same text of different ones. -/
theorem compareBytes_cut_iff {k : ℕ} {s t : Bytes} :
    compareBytes (s.take k) (t.take k) = compareBytes s t ↔ (s.take k = t.take k → s = t) := by
  by_cases hcut : s.take k = t.take k
  · rw [compareBytes_eq_iff.mpr hcut, eq_comm, compareBytes_eq_iff]
    exact ⟨fun h _ => h, fun h => h hcut⟩
  · exact ⟨fun _ h => absurd h hcut, fun _ => compareBytes_take hcut⟩

theorem strcmp_conforms_iff (hapi : api.Documented) {s t : CString} (hs : g.Holds s)
    (ht : g.Holds t) :
    StringCall.Conforms g (api.strcmp g s.ptr t.ptr) (.strcmp s t) ↔
      (s.text.take 511 = t.text.take 511 → s.text = t.text) := by
  have hvalue : signOf (api.strcmp g s.ptr t.ptr).value.toUInt32.toInt32 =
      compareBytes (s.text.take 511) (t.text.take 511) := by
    rw [GuestApi.strcmp, toInt32_signExtended, hapi.order, hs.read hapi, ht.read hapi]
  show signOf (api.strcmp g s.ptr t.ptr).value.toUInt32.toInt32 = _ ∧ g = g ↔ _
  rw [hvalue, and_iff_left rfl, compareBytes_cut_iff]

theorem strncmp_conforms_iff (hapi : api.Documented) {s t : CString} (n : UInt64)
    (hs : g.Holds s) (ht : g.Holds t) :
    StringCall.Conforms g (api.strncmp g s.ptr t.ptr n) (.strncmp s t n) ↔
      (s.text.take 511 = t.text.take 511 → s.text.take n.toNat = t.text.take n.toNat) := by
  have hvalue : signOf (api.strncmp g s.ptr t.ptr n).value.toUInt32.toInt32 =
      compareBytes ((s.text.take n.toNat).take 511) ((t.text.take n.toNat).take 511) := by
    rw [GuestApi.strncmp, toInt32_signExtended, hapi.order, hs.read hapi, ht.read hapi,
      List.take_take, List.take_take, List.take_take, List.take_take, Nat.min_comm]
  show signOf (api.strncmp g s.ptr t.ptr n).value.toUInt32.toInt32 = _ ∧ g = g ↔ _
  rw [hvalue, and_iff_left rfl, compareBytes_cut_iff, List.take_take, List.take_take]
  rcases Nat.le_total n.toNat 511 with hn | hn
  · -- the cut is the caller's own
    have hcut : s.text.take 511 = t.text.take 511 →
        s.text.take n.toNat = t.text.take n.toNat := by
      intro heq
      have htake := congrArg (List.take n.toNat) heq
      rwa [List.take_take, List.take_take, Nat.min_eq_left hn] at htake
    rw [Nat.min_eq_right hn]
    exact ⟨fun _ => hcut, fun _ heq => heq⟩
  · rw [Nat.min_eq_left hn]

theorem length_cStr (text : Bytes) : (cStr text).length = text.length + 1 := by
  rw [cStr, List.length_append, List.length_singleton]

theorem strcpy_conforms_iff (hapi : api.Documented) {dst : UInt64} {src : CString}
    (hs : g.Holds src) (hroom : g.memory.Mapped dst.toNat (src.text.length + 1)) :
    StringCall.Conforms g (api.strcpy g dst src.ptr) (.strcpy dst src) ↔
      src.text.length ≤ 511 := by
  have hlen : (src.text.take 511).length = min 511 src.text.length := List.length_take
  have hmapped : g.memory.Mapped dst.toNat ((src.text.take 511).length + 1) :=
    hroom.mono (by omega)
  have hguest : (api.strcpy g dst src.ptr).guest =
      { g with memory := g.memory.overwrite dst.toNat (cStr (src.text.take 511)) } := by
    rw [GuestApi.strcpy, hs.read hapi, hapi.write _ _ _ (by rw [length_cStr]; exact hmapped)]
  show dst = dst ∧ (api.strcpy g dst src.ptr).guest = _ ↔ _
  rw [hguest, and_iff_right rfl]
  constructor
  · intro heq
    have hle := Memory.length_le_of_overwrite_eq hmapped hs.noNul (congrArg Guest.memory heq)
    omega
  · intro hle
    rw [List.take_of_length_le hle]

theorem strcat_conforms_iff (hapi : api.Documented) {dst src : CString} (hd : g.Holds dst)
    (hs : g.Holds src)
    (hroom : g.memory.Mapped dst.ptr.toNat (dst.text.length + src.text.length + 1)) :
    StringCall.Conforms g (api.strcat g dst.ptr src.ptr) (.strcat dst src) ↔
      dst.text.length ≤ 511 ∧ src.text.length ≤ 511 := by
  have hlen : (dst.text.take 511 ++ src.text.take 511).length =
      min 511 dst.text.length + min 511 src.text.length := by
    rw [List.length_append, List.length_take, List.length_take]
  have hmapped : g.memory.Mapped dst.ptr.toNat
      ((dst.text.take 511 ++ src.text.take 511).length + 1) := hroom.mono (by omega)
  have hguest : (api.strcat g dst.ptr src.ptr).guest =
      { g with
        memory := g.memory.overwrite dst.ptr.toNat
          (cStr (dst.text.take 511 ++ src.text.take 511)) } := by
    rw [GuestApi.strcat, hd.read hapi, hs.read hapi,
      hapi.write _ _ _ (by rw [length_cStr]; exact hmapped)]
  -- the text that is there may be written again
  have hwhole : g.memory.overwrite (dst.ptr.toNat + dst.text.length) (cStr src.text) =
      g.memory.overwrite dst.ptr.toNat ((dst.text ++ src.text) ++ [0]) := by
    rw [List.append_assoc, Memory.overwrite_append (Memory.Addresses.reads hd).append_left, cStr]
  show dst.ptr = dst.ptr ∧ (api.strcat g dst.ptr src.ptr).guest = _ ↔ _
  rw [hguest, and_iff_right rfl, hwhole]
  constructor
  · intro heq
    have hnoNul : 0 ∉ dst.text ++ src.text := by
      rw [List.mem_append, not_or]
      exact ⟨hd.noNul, hs.noNul⟩
    have hle := Memory.length_le_of_overwrite_eq hmapped hnoNul (congrArg Guest.memory heq)
    rw [List.length_append] at hle
    omega
  · rintro ⟨hd', hs'⟩
    rw [List.take_of_length_le hd', List.take_of_length_le hs', cStr]

/-- The block a text is given is in the heap, and the bump pointer moves
past the text. -/
theorem Guest.HeapReady.room (hg : g.HeapReady) {text : Bytes} (hlen : text.length ≤ 511)
    (hroom : g.runtime.heap.full text = false) :
    g.runtime.heap.heapBump.toNat + text.length + 1 ≤
        (g.runtime.heap.heapBump + roundUp (cSize text) 15).toNat ∧
      g.memory.Mapped g.runtime.heap.heapBump.toNat (text.length + 1) := by
  have hbase := hg.base
  have hlow := UInt64.le_iff_toNat_le.mp hg.low
  have hhigh := UInt64.le_iff_toNat_le.mp hg.high
  have hlimit : g.runtime.heap.limit.toNat =
      g.runtime.heap.heapBase.toNat + heapSize.toNat := by
    rw [Heap.limit, UInt64.toNat_add]
    exact Nat.mod_eq_of_lt (by omega)
  have hcSize : (cSize text).toNat = text.length + 1 := by
    rw [cSize_eq]
    exact UInt64.toNat_ofNat_of_lt' (show text.length + 1 < 2 ^ 64 by omega)
  have hsize := alignUpU64_bounds (k := 4) (by omega) (a := 16) rfl (x := cSize text) (by omega)
  rw [← roundUp_eq, hcSize] at hsize
  change _ ≤ (roundUp (cSize text) 15).toNat ∧ (roundUp (cSize text) 15).toNat < _ ∧ _ at hsize
  have hsum : (g.runtime.heap.heapBump + roundUp (cSize text) 15).toNat =
      g.runtime.heap.heapBump.toNat + (roundUp (cSize text) 15).toNat := by
    rw [UInt64.toNat_add]
    exact Nat.mod_eq_of_lt (by omega)
  rw [Heap.full, decide_eq_false_iff_not, UInt64.not_lt, UInt64.le_iff_toNat_le, hlimit,
    hsum] at hroom
  refine ⟨by omega, ?_⟩
  exact hg.mapped.within hlow (by omega)

theorem strdup_conforms_iff (hapi : api.Documented) {s : CString} (hs : g.Holds s)
    (hg : g.HeapReady) :
    StringCall.Conforms g (api.strdup g s.ptr) (.strdup s) ↔
      (g.runtime.heap.full (s.text.take 511) = true ∨
        g.runtime.heap.heapBump ≠ 0 ∧ s.text.length ≤ 511) := by
  have hlen : (s.text.take 511).length = min 511 s.text.length := List.length_take
  by_cases hfull : g.runtime.heap.full (s.text.take 511) = true
  · have hout : api.strdup g s.ptr = { value := 0, guest := g } := by
      simp only [GuestApi.strdup, hs.read hapi, if_pos hfull]
    rw [hout]
    exact ⟨fun _ => Or.inl hfull, fun _ => Or.inl ⟨rfl, rfl⟩⟩
  · have hroom : g.runtime.heap.full (s.text.take 511) = false := by simpa using hfull
    obtain ⟨hpast, hmapped⟩ := hg.room (by omega) hroom
    have hgrant : ¬g.runtime.heap.limit <
        g.runtime.heap.heapBump + roundUp (cSize (s.text.take 511)) 15 := by
      rw [Heap.full, decide_eq_false_iff_not] at hroom
      exact hroom
    have hout : api.strdup g s.ptr =
        { value := g.runtime.heap.heapBump
          guest :=
            { memory := g.memory.overwrite g.runtime.heap.heapBump.toNat
                (cStr (s.text.take 511))
              runtime := (g.runtime.copyText (s.text.take 511)).1 } } := by
      simp only [GuestApi.strdup, hs.read hapi, if_neg hfull]
      rw [hapi.write _ _ _ (by rw [length_cStr]; exact hmapped)]
    have hvalue : (api.strdup g s.ptr).value = g.runtime.heap.heapBump := by rw [hout]
    have hmemory : (api.strdup g s.ptr).guest.memory =
        g.memory.overwrite g.runtime.heap.heapBump.toNat (cStr (s.text.take 511)) := by rw [hout]
    have hbump : (api.strdup g s.ptr).guest.runtime.heap.heapBump =
        g.runtime.heap.heapBump + roundUp (cSize (s.text.take 511)) 15 := by
      rw [hout, Runtime.copyText, Runtime.grant, if_neg hgrant]
    rw [StringCall.Conforms, hvalue, hmemory, hbump, or_iff_right hfull]
    constructor
    · rintro (⟨-, hsame⟩ | ⟨hplace, hcopied, -, -⟩)
      · -- the bump pointer has moved
        rw [hsame] at hbump
        rw [← hbump] at hpast
        omega
      · have hle := Memory.length_le_of_overwrite_eq hmapped hs.noNul hcopied
        exact ⟨hplace, by omega⟩
    · rintro ⟨hplace, hle⟩
      rw [List.take_of_length_le hle] at hpast ⊢
      exact Or.inr ⟨hplace, rfl, UInt64.le_refl _, hpast⟩

/-- Where the needle is found in what is left of both. -/
theorem search_cut_iff {k : ℕ} {text needle : Bytes} :
    search (needle.take k) (text.take k) = search needle text ↔
      ((needle <:+: text → needle <:+: text.take k ∨ needle <+: text) ∧
        (k < needle.length → needle.take k <+: text → needle <+: text)) := by
  rcases Nat.lt_or_ge k needle.length with hlong | hshort
  · have hcut : (needle.take k).length = k := by
      rw [List.length_take]
      omega
    -- what is left of a long needle is as long as what is left of the text
    have hat : needle.take k <:+: text.take k ↔ needle.take k <+: text := by
      constructor
      · intro hin
        have hle := hin.length_le
        have hcut' : (text.take k).length ≤ k := List.length_take_le k text
        rw [hin.eq_of_length (by omega)]
        exact List.take_prefix k text
      · intro hpre
        exact (List.prefix_take_iff.mpr ⟨hpre, by omega⟩).isInfix
    have hnotIn : ¬needle <:+: text.take k := by
      intro hin
      have hle := hin.length_le
      have hcut' : (text.take k).length ≤ k := List.length_take_le k text
      omega
    by_cases hpre : needle.take k <+: text
    · have hleft : search (needle.take k) (text.take k) = some 0 :=
        search_of_isPrefix (List.prefix_take_iff.mpr ⟨hpre, by omega⟩)
      rw [hleft, eq_comm, search_eq_zero_iff]
      exact ⟨fun h => ⟨fun _ => Or.inr h, fun _ _ => h⟩, fun h => h.2 hlong hpre⟩
    · have hleft : search (needle.take k) (text.take k) = none := by
        rw [search_eq_none_iff, hat]
        exact hpre
      rw [hleft, eq_comm, search_eq_none_iff]
      constructor
      · exact fun hno => ⟨fun hin => absurd hin hno, fun _ h => absurd h hpre⟩
      · rintro ⟨hin, -⟩ hfound
        rcases hin hfound with h | h
        · exact hnotIn h
        · exact hpre ((List.take_prefix k needle).trans h)
  · rw [List.take_of_length_le hshort]
    cases hfound : search needle (text.take k) with
    | some i =>
      rw [search_of_take hfound]
      have hin := isInfix_of_search hfound
      exact ⟨fun _ => ⟨fun _ => Or.inl hin, fun h => absurd h (by omega)⟩, fun _ => rfl⟩
    | none =>
      have hnotIn := search_eq_none_iff.mp hfound
      rw [eq_comm, search_eq_none_iff]
      constructor
      · exact fun hno => ⟨fun hin => absurd hin hno, fun h => absurd h (by omega)⟩
      · rintro ⟨hin, -⟩ hfound'
        rcases hin hfound' with h | h
        · exact hnotIn h
        · exact hnotIn (List.prefix_take_iff.mpr ⟨h, hshort⟩).isInfix

/-- Different places in a string are different pointers, and none is
null. -/
theorem foundAt_inj {p : UInt64} {text : Bytes} (hp : p ≠ 0)
    (hlt : p.toNat + text.length < 2 ^ 64) {i j : Option ℕ} (hi : ∀ k ∈ i, k ≤ text.length)
    (hj : ∀ k ∈ j, k ≤ text.length) (heq : foundAt p i = foundAt p j) : i = j := by
  have hpos : p.toNat ≠ 0 := fun h => hp (UInt64.toNat_inj.mp h)
  have hplace : ∀ k ≤ text.length, (p + UInt64.ofNat k).toNat = p.toNat + k := by
    intro k hk
    rw [UInt64.toNat_add, UInt64.toNat_ofNat_of_lt' (show k < 2 ^ 64 by omega)]
    exact Nat.mod_eq_of_lt (by omega)
  have hnum := congrArg UInt64.toNat heq
  cases i with
  | none =>
    cases j with
    | none => rfl
    | some j =>
      rw [foundAt, foundAt, hplace j (hj j rfl), UInt64.toNat_zero] at hnum
      omega
  | some i =>
    cases j with
    | none =>
      rw [foundAt, foundAt, hplace i (hi i rfl), UInt64.toNat_zero] at hnum
      omega
    | some j =>
      rw [foundAt, foundAt, hplace i (hi i rfl), hplace j (hj j rfl)] at hnum
      rw [show i = j by omega]

theorem strstr_conforms_iff (hapi : api.Documented) {haystack needle : CString}
    (hh : g.Holds haystack) (hn : g.Holds needle) :
    StringCall.Conforms g (api.strstr g haystack.ptr needle.ptr) (.strstr haystack needle) ↔
      ((needle.text <:+: haystack.text →
          needle.text <:+: haystack.text.take 511 ∨ needle.text <+: haystack.text) ∧
        (511 < needle.text.length → needle.text.take 511 <+: haystack.text →
          needle.text <+: haystack.text)) := by
  have hvalue : (api.strstr g haystack.ptr needle.ptr).value =
      foundAt haystack.ptr (search (needle.text.take 511) (haystack.text.take 511)) := by
    have hnull : ¬(haystack.ptr = 0 || needle.ptr = 0) = true := by
      simp [hh.notNull, hn.notNull]
    rw [GuestApi.strstr, if_neg hnull, hh.read hapi, hn.read hapi]
    by_cases hempty : needle.text.take 511 = []
    · rw [hempty, search_of_isPrefix List.nil_prefix]
      simp [foundAt]
    · rw [if_neg (by simpa using hempty), find, if_neg (by omega), List.drop_zero]
      simp
  have hbound : ∀ {sought text : Bytes}, text.length ≤ haystack.text.length →
      ∀ k ∈ search sought text, k ≤ haystack.text.length := by
    intro sought text hle k hk
    exact Nat.le_trans (search_le hk) hle
  show (api.strstr g haystack.ptr needle.ptr).value = _ ∧ g = g ↔ _
  rw [and_iff_left rfl, hvalue, ← search_cut_iff]
  constructor
  · intro heq
    refine foundAt_inj hh.notNull (Memory.Addresses.lt hh) (hbound ?_) (hbound (Nat.le_refl _)) heq
    rw [List.length_take]
    omega
  · intro heq
    rw [heq]

/-! ## Sources of shaders -/

theorem ShaderString.Listed.pointer_read (hapi : api.Documented) {strings lengths : UInt64}
    {i : ℕ} {x : ShaderString} (hx : x.Listed g strings lengths i) :
    api.guestReadU64 g.memory (strings + UInt64.ofNat (8 * i)) = x.source.ptr := by
  have hlt := hx.pointer.lt (by simp [encodeLe])
  rw [length_encodeLe] at hlt
  have haddress : (strings + UInt64.ofNat (8 * i)).toNat = strings.toNat + 8 * i := by
    rw [UInt64.toNat_add, UInt64.toNat_ofNat_of_lt' (show 8 * i < 2 ^ 64 by omega)]
    exact Nat.mod_eq_of_lt (by omega)
  have hmapped := hx.pointer.mapped
  have hbytes := hx.pointer.bytes_eq
  rw [length_encodeLe] at hmapped hbytes
  rw [GuestApi.guestReadU64, hapi.read _ _ _ (by rw [haddress]; exact hmapped), haddress, hbytes,
    le_encodeLe x.source.ptr.toNat_lt, UInt64.ofNat_toNat]

/-- One source is passed as it should be where as much of it is wanted as
`guest_read_string` gives. -/
theorem ShaderString.Listed.delimited_iff {strings lengths : UInt64} {i : ℕ} {x : ShaderString}
    (hx : x.Listed g strings lengths i) :
    x.source.text.take 511 = x.delimited g.memory lengths ↔
      x.wanted lengths = min x.source.text.length 511 := by
  have hlen : (x.source.text.take 511).length = min 511 x.source.text.length := List.length_take
  rw [ShaderString.delimited, ShaderString.wanted]
  split
  · constructor
    · intro heq
      have hsame := congrArg List.length heq
      omega
    · intro hle
      exact List.take_of_length_le (by omega)
  · have hwhole := (Memory.Addresses.reads hx.source).append_left.bytes_eq
    constructor
    · intro heq
      have hsame := congrArg List.length heq
      rw [Memory.length_bytes] at hsame
      omega
    · intro hwanted
      rw [← Memory.bytes_take (show _ ≤ x.source.text.length by omega), hwhole, hwanted,
        List.take_eq_take_iff]
      omega

theorem glShaderSource_conforms_iff (hapi : api.Documented) {strings lengths : UInt64}
    {sources : List ShaderString} (hcount : sources.length < 2 ^ 31)
    (hlisted : ∀ i (x : ShaderString), sources[i]? = some x → x.Listed g strings lengths i) :
    (∃ out, api.glShaderSource g (Int32.ofNat sources.length) strings lengths = some out ∧
        StringCall.Conforms g out (.glShaderSource strings lengths sources)) ↔
      ∀ x ∈ sources, x.wanted lengths = min x.source.text.length 511 := by
  have hint : (Int32.ofNat sources.length).toInt = sources.length := Int32.toInt_ofNat_of_lt hcount
  have hpositive : ¬Int32.ofNat sources.length < 0 := by
    rw [Int32.lt_iff_toInt_lt, hint]
    simp
  have hpassed : ((List.range (Int32.ofNat sources.length).toInt.toNat).map fun i =>
      api.guestReadString g.memory
        (api.guestReadU64 g.memory (strings + UInt64.ofNat (8 * i)))) =
      sources.map (·.source.text.take 511) := by
    rw [hint, Int.toNat_natCast]
    refine List.ext_getElem (by simp) fun i hi hi' => ?_
    rw [List.length_map] at hi'
    have hx := hlisted i sources[i] (List.getElem?_eq_getElem hi')
    rw [List.getElem_map, List.getElem_map, List.getElem_range, hx.pointer_read hapi]
    exact hx.source.read hapi
  have hout : api.glShaderSource g (Int32.ofNat sources.length) strings lengths =
      some { value := 0, guest := g, passed := sources.map (·.source.text.take 511) } := by
    rw [GuestApi.glShaderSource, if_neg hpositive, hpassed]
  have hconforms : StringCall.Conforms g
      { value := 0, guest := g, passed := sources.map (·.source.text.take 511) }
      (.glShaderSource strings lengths sources) ↔
        ∀ x ∈ sources, x.source.text.take 511 = x.delimited g.memory lengths := by
    rw [StringCall.Conforms, and_iff_left rfl, List.map_inj_left]
  have heach : ∀ x ∈ sources, (x.source.text.take 511 = x.delimited g.memory lengths ↔
      x.wanted lengths = min x.source.text.length 511) := by
    intro x hx
    obtain ⟨i, hi⟩ := List.mem_iff_getElem?.mp hx
    exact (hlisted i x hi).delimited_iff
  rw [hout]
  constructor
  · rintro ⟨out, hsome, hc⟩ x hx
    cases hsome
    exact (heach x hx).mp (hconforms.mp hc x hx)
  · intro h
    exact ⟨_, rfl, hconforms.mpr fun x hx => (heach x hx).mpr (h x hx)⟩

end Stubs

/-! ## The heap of a run -/

/-- A call leaves the bump pointer where its block ends, inside the
heap. -/
theorem Call.Does.high {c : Call} {h h' : Heap} {a : UInt64} (hd : c.Does h a h')
    (hh : h.heapBump ≤ h.limit) : h'.heapBump ≤ h'.limit := by
  cases hd with
  | refused => exact hh
  | took hfits => exact UInt64.not_lt.mp hfits

/-- **What `strdup` needs of the heap, every run keeps.** Only that the
heap is mapped is left to the guest. -/
theorem start_heapReady {calls : List Call} {e : Event} (he : e ∈ Runtime.start.events calls)
    {g : Guest} (hg : g.runtime.heap = e.after)
    (hmapped : g.memory.Mapped g.runtime.heap.heapBase.toNat heapSize.toNat) : g.HeapReady := by
  have hbase : g.runtime.heap.heapBase = 0 := by
    rw [hg, events_heapBase he]
    rfl
  have hhigh : ∀ {rt : Runtime} {calls : List Call}, rt.heap.heapBump ≤ rt.heap.limit →
      ∀ e ∈ rt.events calls, e.after.heapBump ≤ e.after.limit := by
    intro rt calls hrt e he
    induction calls generalizing rt with
    | nil => exact absurd he List.not_mem_nil
    | cons c calls ih =>
      obtain ⟨rt', reply, hstep, rfl | hlater⟩ := mem_events_cons he
      · exact (step_ends hstep).high hrt
      · exact ih ((step_ends hstep).high hrt) hlater
  refine ⟨?_, ?_, ?_, hmapped⟩
  · rw [hbase]
    decide
  · rw [hbase]
    exact UInt64.le_iff_toNat_le.mpr (Nat.zero_le _)
  · rw [hg]
    exact hhigh (by decide) e he

/-! ## The strings of every length -/

/-- Accesses that do what is documented, and nothing where memory is not
mapped. -/
def plainApi : GuestApi where
  guestReadStr m p size := (m.bytes p.toNat (size - 1)).takeWhile (· ≠ 0)
  guestRead m p n := m.bytes p.toNat n
  guestWrite m p bs := m.overwrite p.toNat bs
  compare s t := match compareBytes s t with
    | .lt => -1
    | .eq => 0
    | .gt => 1

theorem plainApi_documented : plainApi.Documented where
  readStr m p text size h _ := by
    have hnoNul : ∀ n, ∀ b ∈ text.take n, (b ≠ 0 : Bool) = true := by
      intro n b hb
      rw [decide_eq_true_eq]
      rintro rfl
      exact h.noNul (List.mem_of_mem_take hb)
    have hwhole := h.reads.bytes_eq
    rw [List.length_append, List.length_singleton] at hwhole
    show (m.bytes p.toNat (size - 1)).takeWhile _ = _
    rcases Nat.lt_or_ge text.length (size - 1) with hlt | hge
    · -- the terminator is among what is read
      have hread : m.bytes p.toNat (size - 1) =
          text ++ 0 :: (m.bytes p.toNat (size - 1)).drop (text.length + 1) := by
        rw [← List.take_append_drop (text.length + 1) (m.bytes p.toNat (size - 1)),
          Memory.bytes_take hlt, hwhole, List.drop_append, List.append_assoc]
        simp
      rw [hread, List.takeWhile_append_of_pos (by simpa using hnoNul text.length),
        List.takeWhile_cons_of_neg (by simp), List.append_nil, List.take_of_length_le (by omega)]
    · have hread : m.bytes p.toNat (size - 1) = text.take (size - 1) := by
        rw [← Memory.bytes_take hge, h.reads.append_left.bytes_eq]
      rw [hread, List.takeWhile_eq_self_iff]
      exact hnoNul (size - 1)
  read _ _ _ _ := rfl
  write _ _ _ _ := rfl
  order s t := by
    show signOf (match compareBytes s t with
      | .lt => -1
      | .eq => 0
      | .gt => 1) = _
    cases compareBytes s t <;> decide

/-- A guest whose memory has a string at 4096 and nothing else. -/
def guestWith (text : Bytes) (h : 4096 + (text ++ [0]).length ≤ 2 ^ 64) : Guest where
  memory := .ofBytes 4096 (text ++ [0]) h
  runtime := .start

theorem guestWith_holds {text : Bytes} (h : 4096 + (text ++ [0]).length ≤ 2 ^ 64)
    (hnoNul : 0 ∉ text) : (guestWith text h).Holds ⟨4096, text⟩ where
  notNull := (by decide : (4096 : UInt64) ≠ 0)
  noNul := hnoNul
  reads := Memory.reads_ofBytes h

end Android

end Muplar
