import Muplar.Loader.Elf
/-!
# The direct `.so` loader — mapping a file

`map_direct_so_object` checks one range, computed from the lowest and the
highest address of all segments, and then writes each segment at its own
address and with its own sizes. All of it is arithmetic on 64-bit words.
`map_writes_inside_iff` says which headers keep the writes in the range;
no check of the loader does.
-/

namespace Muplar

namespace Loader

/-! ## Writes -/

/-- A write to guest memory: a `memset` to zero or what a read stored. -/
inductive Write
  | fill (dst len : UInt64)
  | copy (dst : UInt64) (data : Bytes)
  deriving DecidableEq

def Write.dst : Write → UInt64
  | .fill dst _ => dst
  | .copy dst _ => dst

def Write.size : Write → ℕ
  | .fill _ len => len.toNat
  | .copy _ data => data.length

/-- The write stores a byte at `gpa`. -/
def Write.Stores (w : Write) (gpa : UInt64) : Prop :=
  ∃ k < w.size, gpa = w.dst + UInt64.ofNat k

/-! ## `map_direct_so_object` -/

def block2MiB : UInt64 := 0x200000

/-- `phdr_mem_perms`; reading is always allowed. -/
structure Perms where
  w : Bool
  x : Bool
  deriving DecidableEq

def phdrMemPerms (flags : ℕ) : Perms where
  w := flags / 2 % 2 = 1
  x := flags % 2 = 1

/-- The page tables of the guest, which belong to the host: whether a
range could be mapped, and whether its permissions could be set. -/
structure PageTables where
  extend : UInt64 → UInt64 → Bool
  updatePerms : UInt64 → UInt64 → Perms → Bool

/-- The loop over the segments: zero, then read over it. It ends at a
short read, of which the bytes that were there have been stored. -/
def loadSegments (file : Bytes) (loadBase : UInt64) : List Phdr → List Write × Bool
  | [] => ([], true)
  | ph :: phs =>
    let dst := loadBase + ph.vaddr
    if ph.filesz = 0 then
      let (writes, ok) := loadSegments file loadBase phs
      (.fill dst ph.memsz :: writes, ok)
    else
      let (bytes, ok) := readAt file ph.offset ph.filesz.toNat
      if !ok then ([.fill dst ph.memsz, .copy dst bytes], false)
      else
        let (writes, ok) := loadSegments file loadBase phs
        (.fill dst ph.memsz :: .copy dst bytes :: writes, ok)

def loadBaseAt (obj : DirectSoObject) (runtimeMin : UInt64) : UInt64 :=
  runtimeMin - obj.loadMin

def mapStart (runtimeMin : UInt64) : UInt64 :=
  alignDownU64 runtimeMin block2MiB

def mapEnd (obj : DirectSoObject) (runtimeMin : UInt64) : UInt64 :=
  alignUpU64 (loadBaseAt obj runtimeMin + obj.loadMax) block2MiB

/-- What a call comes to: whether it succeeded, the object with its load
base, and what was written on the way. -/
structure Mapping where
  ok : Bool
  obj : DirectSoObject
  writes : List Write
  deriving DecidableEq

/-- `map_direct_so_object`. -/
def mapDirectSoObject (tables : PageTables) (guestSize : UInt64) (file : Bytes)
    (obj : DirectSoObject) (runtimeMin : UInt64) : Mapping :=
  let base := loadBaseAt obj runtimeMin
  let obj' := { obj with loadBase := base }
  if guestSize < mapEnd obj runtimeMin then ⟨false, obj', []⟩
  else if !tables.extend (mapStart runtimeMin) (mapEnd obj runtimeMin) then ⟨false, obj', []⟩
  else
    let (writes, ok) := loadSegments file base (loads obj.phdrs)
    if !ok then ⟨false, obj', writes⟩
    else
      let permitted := (loads obj.phdrs).all fun ph =>
        tables.updatePerms (alignDownU64 (base + ph.vaddr) 0x1000)
          (alignUpU64 (base + ph.vaddr + ph.memsz) 0x1000) (phdrMemPerms ph.flags)
      ⟨permitted, obj', writes⟩

/-! ## The segments that are reached -/

/-- Where a segment is stored and over how many bytes. -/
structure Extent where
  vaddr : UInt64
  size : ℕ
  deriving DecidableEq

/-- The bytes a segment covers: its memory size, or more where the file
holds more. -/
def Phdr.extent (file : Bytes) (ph : Phdr) : Extent :=
  ⟨ph.vaddr, max ph.memsz.toNat (readAt file ph.offset ph.filesz.toNat).1.length⟩

/-- The extents up to the first segment the file does not fill. -/
def extents (file : Bytes) : List Phdr → List Extent
  | [] => []
  | ph :: phs =>
    ph.extent file ::
      if ph.filesz ≠ 0 ∧ (readAt file ph.offset ph.filesz.toNat).2 = false then []
      else extents file phs

/-- The room an object gets that spans `loadMin` to `loadMax`, when it is
put at an address `o` above a block. -/
def room (o loadMin loadMax : UInt64) : UInt64 :=
  alignUpU64 (o + (loadMax - loadMin)) block2MiB

/-- The extent is empty, or lies in the room of the object at
`runtimeMin`, which lies in the address space. -/
def Extent.Fits (e : Extent) (runtimeMin loadMin loadMax : UInt64) : Prop :=
  let o := runtimeMin % block2MiB
  e.size = 0 ∨
    (runtimeMin - o).toNat + (room o loadMin loadMax).toNat < 2 ^ 64 ∧
    (o + (e.vaddr - loadMin)).toNat + e.size ≤ (room o loadMin loadMax).toNat

instance (e : Extent) (runtimeMin loadMin loadMax : UInt64) :
    Decidable (e.Fits runtimeMin loadMin loadMax) := by
  unfold Extent.Fits
  infer_instance

/-! ## Addresses -/

theorem toNat_mod_block (x : UInt64) : (x % block2MiB).toNat = x.toNat % 2 ^ 21 :=
  UInt64.toNat_mod x block2MiB

theorem mapStart_eq (runtimeMin : UInt64) :
    mapStart runtimeMin = runtimeMin - runtimeMin % block2MiB := by
  apply UInt64.toNat_inj.mp
  have hlt := runtimeMin.toNat_lt
  rw [mapStart, toNat_alignDownU64 (by omega : 21 < 64) rfl, UInt64.toNat_sub, toNat_mod_block]
  omega

/-- The end of the range is its start and the room of the object. -/
theorem mapEnd_eq (obj : DirectSoObject) (runtimeMin : UInt64) :
    mapEnd obj runtimeMin =
      mapStart runtimeMin + room (runtimeMin % block2MiB) obj.loadMin obj.loadMax := by
  have hdvd : 2 ^ 21 ∣ (mapStart runtimeMin).toNat := by
    rw [mapStart, toNat_alignDownU64 (by omega : 21 < 64) rfl]
    omega
  rw [room, ← alignUpU64_add (by omega : 21 < 64) rfl hdvd, mapEnd, mapStart_eq, loadBaseAt]
  congr 1
  grind

/-- A segment is stored above the start of the range by its distance from
the lowest one. -/
theorem dst_eq (obj : DirectSoObject) (runtimeMin vaddr : UInt64) :
    loadBaseAt obj runtimeMin + vaddr =
      mapStart runtimeMin + (runtimeMin % block2MiB + (vaddr - obj.loadMin)) := by
  rw [mapStart_eq, loadBaseAt]
  grind

/-- **One segment.** All its bytes are in the range exactly when its
extent fits. -/
theorem extent_inside_iff (obj : DirectSoObject) (runtimeMin : UInt64) (e : Extent) :
    (∀ k < e.size, mapStart runtimeMin ≤ loadBaseAt obj runtimeMin + e.vaddr + UInt64.ofNat k ∧
      loadBaseAt obj runtimeMin + e.vaddr + UInt64.ofNat k < mapEnd obj runtimeMin) ↔
    e.Fits runtimeMin obj.loadMin obj.loadMax := by
  rw [dst_eq, mapEnd_eq, run_mem_range_iff]
  unfold Extent.Fits
  rw [mapStart_eq]

/-! ## The loop -/

/-- Zeroing a segment and reading over it covers its extent. -/
theorem fill_or_copy_stores_iff (dst memsz gpa : UInt64) (data : Bytes) :
    ((Write.fill dst memsz).Stores gpa ∨ (Write.copy dst data).Stores gpa) ↔
      ∃ k < max memsz.toNat data.length, gpa = dst + UInt64.ofNat k := by
  constructor
  · rintro (⟨k, hk, rfl⟩ | ⟨k, hk, rfl⟩)
    · exact ⟨k, Nat.lt_of_lt_of_le hk (Nat.le_max_left _ _), rfl⟩
    · exact ⟨k, Nat.lt_of_lt_of_le hk (Nat.le_max_right _ _), rfl⟩
  · rintro ⟨k, hk, rfl⟩
    have hk' : k < memsz.toNat ∨ k < data.length := by omega
    rcases hk' with hk | hk
    · exact Or.inl ⟨k, hk, rfl⟩
    · exact Or.inr ⟨k, hk, rfl⟩

theorem readAt_zero (file : Bytes) (off : UInt64) : (readAt file off 0).1 = [] := by
  unfold readAt
  split
  · rfl
  · simp [slice]

/-- The bytes the loop stores are those of the extents. -/
theorem loadSegments_stores_iff (file : Bytes) (base gpa : UInt64) (phs : List Phdr) :
    (∃ w ∈ (loadSegments file base phs).1, w.Stores gpa) ↔
      ∃ e ∈ extents file phs, ∃ k < e.size, gpa = base + e.vaddr + UInt64.ofNat k := by
  induction phs with
  | nil => simp [loadSegments, extents]
  | cons ph phs ih =>
    have hseg := fill_or_copy_stores_iff (base + ph.vaddr) ph.memsz gpa
      (readAt file ph.offset ph.filesz.toNat).1
    by_cases hfile : ph.filesz = 0
    · have hdata : (readAt file ph.offset ph.filesz.toNat).1 = [] := by
        rw [hfile]
        exact readAt_zero file ph.offset
      have hcopy : ¬(Write.copy (base + ph.vaddr) []).Stores gpa := by
        rintro ⟨k, hk, -⟩
        exact absurd hk (Nat.not_lt_zero k)
      rw [hdata, or_iff_left hcopy] at hseg
      simp only [loadSegments, hfile, if_true, extents, Phdr.extent, ne_eq, not_true_eq_false,
        false_and, if_false, List.mem_cons, exists_eq_or_imp, ih]
      rw [hseg, ← hdata, hfile]
    · cases hread : (readAt file ph.offset ph.filesz.toNat).2 with
      | false =>
        simp only [loadSegments, hfile, if_false, extents, Phdr.extent, ne_eq, not_false_eq_true,
          true_and, hread, Bool.not_false, if_true, List.mem_cons, exists_eq_or_imp,
          List.not_mem_nil, or_false, exists_eq_left]
        exact hseg
      | true =>
        simp only [loadSegments, hfile, if_false, extents, Phdr.extent, ne_eq, not_false_eq_true,
          true_and, hread, Bool.not_true, Bool.false_eq_true, Bool.true_eq_false, List.mem_cons,
          exists_eq_or_imp, ih]
        rw [← or_assoc, hseg]

/-! ## Headers the loader is safe with -/

theorem parse_loads {path file : Bytes} {obj : DirectSoObject}
    (h : parseDirectSoMetadata path file = some obj) :
    obj.loadMin = loadMinOf obj.phdrs ∧ obj.loadMax = loadMaxOf obj.phdrs := by
  simp only [parseDirectSoMetadata] at h
  split at h
  · cases h
  · split at h
    · cases h
    · split at h
      · cases h
      · obtain rfl := Option.some.inj h
        exact ⟨rfl, rfl⟩

/-- **When the writes stay in the mapped range.** For a file the parser
accepts, mapped at any address and past the size check: all bytes stored
are inside the range, and with it inside the guest's memory, exactly when
every segment that is reached fits the room between the lowest and the
highest address. -/
theorem map_writes_inside_iff {path file : Bytes} {obj : DirectSoObject} {tables : PageTables}
    {guestSize runtimeMin : UInt64} (hparse : parseDirectSoMetadata path file = some obj)
    (hsize : mapEnd obj runtimeMin ≤ guestSize)
    (hext : tables.extend (mapStart runtimeMin) (mapEnd obj runtimeMin) = true) :
    (∀ w ∈ (mapDirectSoObject tables guestSize file obj runtimeMin).writes, ∀ gpa, w.Stores gpa →
      mapStart runtimeMin ≤ gpa ∧ gpa < mapEnd obj runtimeMin ∧ gpa < guestSize) ↔
    ∀ e ∈ extents file (loads obj.phdrs),
      e.Fits runtimeMin (loadMinOf obj.phdrs) (loadMaxOf obj.phdrs) := by
  have hwrites : (mapDirectSoObject tables guestSize file obj runtimeMin).writes =
      (loadSegments file (loadBaseAt obj runtimeMin) (loads obj.phdrs)).1 := by
    have hnot : ¬guestSize < mapEnd obj runtimeMin := by
      rw [UInt64.not_lt]
      exact hsize
    simp only [mapDirectSoObject, if_neg hnot, hext]
    cases (loadSegments file (loadBaseAt obj runtimeMin) (loads obj.phdrs)).2 <;> rfl
  obtain ⟨hmin, hmax⟩ := parse_loads hparse
  rw [hwrites, ← hmin, ← hmax]
  constructor
  · intro hin e he
    rw [← extent_inside_iff]
    intro k hk
    obtain ⟨w, hw, hstores⟩ := (loadSegments_stores_iff file (loadBaseAt obj runtimeMin) _ _).mpr
      ⟨e, he, k, hk, rfl⟩
    have h := hin w hw _ hstores
    exact ⟨h.1, h.2.1⟩
  · intro hfits w hw gpa hstores
    obtain ⟨e, he, k, hk, rfl⟩ := (loadSegments_stores_iff file (loadBaseAt obj runtimeMin) _ _).mp
      ⟨w, hw, hstores⟩
    have h := (extent_inside_iff obj runtimeMin e).mpr (hfits e he) k hk
    exact ⟨h.1, h.2, UInt64.lt_of_lt_of_le h.2 hsize⟩

/-- A segment as a linker writes it: no more in the file than in memory,
and an end, rounded up to a page, that does not wrap. -/
structure Phdr.Sound (ph : Phdr) : Prop where
  filesz : ph.filesz.toNat ≤ ph.memsz.toNat
  stop : ph.vaddr.toNat + ph.memsz.toNat + 0xfff < 2 ^ 64

theorem length_readAt_le (file : Bytes) (off : UInt64) (len : ℕ) :
    (readAt file off len).1.length ≤ len := by
  unfold readAt
  split
  · exact Nat.zero_le _
  · exact List.length_take_le _ _

theorem mem_extents {file : Bytes} {phs : List Phdr} {e : Extent} (h : e ∈ extents file phs) :
    ∃ ph ∈ phs, e = ph.extent file := by
  induction phs with
  | nil => cases h
  | cons ph phs ih =>
    rw [extents] at h
    rcases List.mem_cons.mp h with rfl | h
    · exact ⟨ph, List.mem_cons_self, rfl⟩
    · split at h
      · cases h
      · obtain ⟨ph', hmem, he⟩ := ih h
        exact ⟨ph', List.mem_cons_of_mem _ hmem, he⟩

theorem foldl_start_le (phs : List Phdr) (init : UInt64) :
    let low := phs.foldl (fun low ph =>
      let start := alignDownU64 ph.vaddr 0x1000
      if start < low then start else low) init
    low ≤ init ∧ ∀ ph ∈ phs, low ≤ alignDownU64 ph.vaddr 0x1000 := by
  induction phs generalizing init with
  | nil => exact ⟨UInt64.le_refl _, by simp⟩
  | cons ph phs ih =>
    obtain ⟨hinit, hall⟩ := ih (if alignDownU64 ph.vaddr 0x1000 < init
      then alignDownU64 ph.vaddr 0x1000 else init)
    simp only [List.foldl_cons, List.mem_cons, forall_eq_or_imp]
    refine ⟨?_, ?_, hall⟩
    · refine UInt64.le_trans hinit ?_
      split
      · next h => exact UInt64.le_of_lt h
      · exact UInt64.le_refl _
    · refine UInt64.le_trans hinit ?_
      split
      · exact UInt64.le_refl _
      · next h => exact UInt64.not_lt.mp h

theorem le_foldl_stop (phs : List Phdr) (init : UInt64) :
    let high := phs.foldl (fun high ph =>
      let stop := alignUpU64 (ph.vaddr + ph.memsz) 0x1000
      if high < stop then stop else high) init
    init ≤ high ∧ ∀ ph ∈ phs, alignUpU64 (ph.vaddr + ph.memsz) 0x1000 ≤ high := by
  induction phs generalizing init with
  | nil => exact ⟨UInt64.le_refl _, by simp⟩
  | cons ph phs ih =>
    obtain ⟨hinit, hall⟩ := ih (if init < alignUpU64 (ph.vaddr + ph.memsz) 0x1000
      then alignUpU64 (ph.vaddr + ph.memsz) 0x1000 else init)
    simp only [List.foldl_cons, List.mem_cons, forall_eq_or_imp]
    refine ⟨?_, ?_, hall⟩
    · refine UInt64.le_trans ?_ hinit
      split
      · next h => exact UInt64.le_of_lt h
      · exact UInt64.le_refl _
    · refine UInt64.le_trans ?_ hinit
      split
      · exact UInt64.le_refl _
      · next h => exact UInt64.not_lt.mp h

/-- **Sound headers fit.** When every segment is sound and the object
does not reach the last block of the address space, there is nothing the
loader would have to check. -/
theorem sound_fits {file : Bytes} {phdrs : List Phdr} {runtimeMin : UInt64}
    (hsound : ∀ ph ∈ loads phdrs, ph.Sound)
    (hroom : runtimeMin.toNat + (loadMaxOf phdrs).toNat + 2 ^ 21 ≤
      2 ^ 64 + (loadMinOf phdrs).toNat) :
    ∀ e ∈ extents file (loads phdrs), e.Fits runtimeMin (loadMinOf phdrs) (loadMaxOf phdrs) := by
  intro e he
  obtain ⟨ph, hph, rfl⟩ := mem_extents he
  obtain ⟨hfilesz, hstop⟩ := hsound ph hph
  have hsize : (ph.extent file).size = ph.memsz.toNat := by
    have := length_readAt_le file ph.offset ph.filesz.toNat
    simp only [Phdr.extent]
    omega
  -- the lowest and the highest address enclose the segment
  have hmin : (loadMinOf phdrs).toNat ≤ ph.vaddr.toNat := by
    have h := (foldl_start_le (loads phdrs) (0 - 1)).2 ph hph
    rw [UInt64.le_iff_toNat_le, toNat_alignDownU64 (by omega : 12 < 64) rfl] at h
    exact Nat.le_trans h (Nat.sub_le _ _)
  have hmax : ph.vaddr.toNat + ph.memsz.toNat ≤ (loadMaxOf phdrs).toNat := by
    have h := (le_foldl_stop (loads phdrs) 0).2 ph hph
    rw [UInt64.le_iff_toNat_le, toNat_alignUpU64 (by omega : 12 < 64) rfl,
      UInt64.toNat_add] at h
    refine Nat.le_trans ?_ h
    omega
  have hr := runtimeMin.toNat_lt
  have ho := toNat_mod_block runtimeMin
  set low := (loadMinOf phdrs)
  set high := (loadMaxOf phdrs)
  have hlow := low.toNat_lt
  have hhigh := high.toNat_lt
  have hspan : (high - low).toNat = high.toNat - low.toNat := by
    rw [UInt64.toNat_sub]
    omega
  have hdist : (ph.vaddr - low).toNat = ph.vaddr.toNat - low.toNat := by
    rw [UInt64.toNat_sub]
    have := ph.vaddr.toNat_lt
    omega
  have hblock : (runtimeMin - runtimeMin % block2MiB).toNat =
      runtimeMin.toNat - runtimeMin.toNat % 2 ^ 21 := by
    rw [UInt64.toNat_sub, ho]
    omega
  have hup : (room (runtimeMin % block2MiB) low high).toNat =
      (runtimeMin.toNat % 2 ^ 21 + (high.toNat - low.toNat) + (2 ^ 21 - 1)) / 2 ^ 21 * 2 ^ 21 := by
    rw [room, toNat_alignUpU64 (by omega : 21 < 64) rfl, UInt64.toNat_add, hspan, ho]
    omega
  right
  rw [hblock, hup, hsize, UInt64.toNat_add, ho]
  change _ ∧ (_ + (ph.vaddr - low).toNat) % _ + _ ≤ _
  rw [hdist]
  omega

/-! ## Two files -/

def Phdr.encode (ph : Phdr) : Bytes :=
  encodeLe 4 ph.type ++ encodeLe 4 ph.flags ++ encodeLe 8 ph.offset.toNat ++
    encodeLe 8 ph.vaddr.toNat ++ encodeLe 8 ph.vaddr.toNat ++ encodeLe 8 ph.filesz.toNat ++
    encodeLe 8 ph.memsz.toNat ++ encodeLe 8 0x1000

/-- A shared object that is its headers and nothing else. -/
def headersOnly (phdrs : List Phdr) : Bytes :=
  elfMagic ++ [2, 1, 1] ++ List.replicate 9 0 ++ encodeLe 2 3 ++ encodeLe 2 emAarch64 ++
    encodeLe 4 1 ++ encodeLe 8 0 ++ encodeLe 8 64 ++ encodeLe 8 0 ++ encodeLe 4 0 ++
    encodeLe 2 64 ++ encodeLe 2 56 ++ encodeLe 2 phdrs.length ++ encodeLe 2 0 ++ encodeLe 2 0 ++
    encodeLe 2 0 ++ phdrs.flatMap Phdr.encode

/-- A page that holds the first bytes of the file. -/
def firstPage : Phdr :=
  { type := ptLoad, flags := 5, offset := 0, vaddr := 0, filesz := 64, memsz := 0x1000 }

/-- A segment that ends at `2 ^ 64`, and so at `0`. -/
def wrapping : Phdr :=
  { type := ptLoad, flags := 6, offset := 0, vaddr := 0x1000, filesz := 0, memsz := 0 - 0x1000 }

def anyTables : PageTables where
  extend _ _ := true
  updatePerms _ _ _ := true

def parsed (phdrs : List Phdr) : DirectSoObject :=
  { path := [], soname := [], loadBase := 0, loadMin := 0, loadMax := 0x1000, phdrs, dyn := {} }

theorem sound_fits_firstPage :
    (firstPage.extent (headersOnly [firstPage])).Fits 0x200000 (loadMinOf [firstPage])
      (loadMaxOf [firstPage]) := by
  have hmem : firstPage.extent (headersOnly [firstPage]) ∈
      extents (headersOnly [firstPage]) (loads [firstPage]) := List.mem_cons_self
  refine sound_fits (fun ph hph => ?_) (by decide) _ hmem
  obtain rfl : ph = firstPage := List.mem_singleton.mp hph
  exact ⟨by decide, by decide⟩

theorem map_writes_inside_firstPage :
    parseDirectSoMetadata [] (headersOnly [firstPage]) = some (parsed [firstPage]) ∧
    ∀ w ∈ (mapDirectSoObject anyTables 0x40000000 (headersOnly [firstPage])
      (parsed [firstPage]) 0x200000).writes, ∀ gpa, w.Stores gpa →
        0x200000 ≤ gpa ∧ gpa < 0x400000 ∧ gpa < 0x40000000 := by
  have hparse : parseDirectSoMetadata [] (headersOnly [firstPage]) = some (parsed [firstPage]) := by
    decide
  exact ⟨hparse, (map_writes_inside_iff hparse (by decide) rfl).mpr (by decide)⟩

/-- **A segment that wraps is written over everything.** The range that
is checked and mapped is one block; the second segment starts in it and
is zeroed to the end of the address space. -/
theorem wrapping_segment_escapes :
    parseDirectSoMetadata [] (headersOnly [firstPage, wrapping]) =
      some (parsed [firstPage, wrapping]) ∧
    mapEnd (parsed [firstPage, wrapping]) 0x200000 ≤ 0x40000000 ∧
    ∃ w ∈ (mapDirectSoObject anyTables 0x40000000 (headersOnly [firstPage, wrapping])
      (parsed [firstPage, wrapping]) 0x200000).writes, ∃ gpa, w.Stores gpa ∧
        ¬(mapStart 0x200000 ≤ gpa ∧ gpa < mapEnd (parsed [firstPage, wrapping]) 0x200000) := by
  refine ⟨by decide, by decide, .fill 0x201000 (0 - 0x1000), by decide, 0x40000000,
    ⟨0x3fdff000, ?_, ?_⟩, ?_⟩
  all_goals decide

end Loader

end Muplar
