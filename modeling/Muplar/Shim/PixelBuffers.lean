import Mathlib.Algebra.Order.Ring.Int
import Mathlib.Tactic.Positivity
import Mathlib.Tactic.Ring
import Muplar.Shim.Graphics
/-!
# Pixel buffers — copies between a bitmap and a buffer

A bitmap keeps 32 bits a pixel, whatever its configuration says a pixel
has; `nativeCopyPixelsToBuffer` and `nativeCopyPixelsFromBuffer` convert
where that is one or two bytes, and copy the storage as it is where it is
not. A buffer is bytes behind an address or an array of elements, and its
position counts elements. The memory of either side goes on beyond what
belongs to it, so that a copy that runs over has its effect.

Four things go wrong. The storage is too small for eight bytes a pixel; a
pixel that is transparent in full comes back opaque; the position of a
direct buffer is taken for bytes; and the sizes and places are `int`s.
Everywhere else the copies are what they should be (`faithful_iff`).
-/

namespace Muplar

namespace Shim

namespace PixelBuffers

/-! ## Colours -/

/-- A pixel in one byte: what it has of alpha, all where there is colour
without. -/
def alphaOf (p : UInt32) : UInt8 :=
  let a := (p >>> 24).toUInt8
  if a = 0 ∧ p &&& 0xffffff ≠ 0 then 0xff else a

/-- A pixel in two bytes. -/
def narrow565 (p : UInt32) : UInt32 :=
  (((p >>> 19) &&& 0x1f) <<< 11) ||| (((p >>> 10) &&& 0x3f) <<< 5) ||| ((p >>> 3) &&& 0x1f)

/-- A byte of a number, as it lies in memory. -/
def byteAt (p : UInt32) (k : ℕ) : UInt8 :=
  UInt8.ofNat (p.toNat / 256 ^ k % 256)

/-- `|||` of parts that do not overlap. -/
theorem or_shift {a b i : ℕ} (h : b < 2 ^ i) : b ||| a <<< i = a * 2 ^ i + b := by
  rw [Nat.or_comm, ← Nat.shiftLeft_add_eq_or_of_lt h, Nat.shiftLeft_eq]

/-- The same with the higher part first. -/
theorem shift_or {a b i : ℕ} (h : b < 2 ^ i) : a <<< i ||| b = a * 2 ^ i + b := by
  rw [Nat.or_comm, or_shift h]

/-- Four bytes, the first one lowest. -/
def joined (b₀ b₁ b₂ b₃ : UInt8) : UInt32 :=
  b₀.toUInt32 ||| b₁.toUInt32 <<< 8 ||| b₂.toUInt32 <<< 16 ||| b₃.toUInt32 <<< 24

theorem toNat_joined (b₀ b₁ b₂ b₃ : UInt8) : (joined b₀ b₁ b₂ b₃).toNat =
    b₀.toNat + b₁.toNat * 256 + b₂.toNat * 65536 + b₃.toNat * 16777216 := by
  have h₀ := b₀.toNat_lt
  have h₁ := b₁.toNat_lt
  have h₂ := b₂.toNat_lt
  have h₃ := b₃.toNat_lt
  have hshift : ∀ (b : UInt8) (s : UInt32), s.toNat ≤ 24 →
      (b.toUInt32 <<< s).toNat = b.toNat <<< s.toNat := by
    intro b s hs
    have hb := b.toNat_lt
    rw [UInt32.toNat_shiftLeft, UInt8.toNat_toUInt32, Nat.mod_eq_of_lt (a := s.toNat) (by omega),
      Nat.mod_eq_of_lt]
    calc b.toNat <<< s.toNat = b.toNat * 2 ^ s.toNat := Nat.shiftLeft_eq _ _
      _ < 2 ^ 8 * 2 ^ s.toNat := Nat.mul_lt_mul_of_pos_right hb (Nat.two_pow_pos _)
      _ ≤ 2 ^ 8 * 2 ^ 24 := Nat.mul_le_mul_left _ (Nat.pow_le_pow_right (by decide) hs)
  rw [joined, UInt32.toNat_or, UInt32.toNat_or, UInt32.toNat_or, hshift b₁ 8 (by decide),
    hshift b₂ 16 (by decide), hshift b₃ 24 (by decide), UInt8.toNat_toUInt32]
  simp only [UInt32.reduceToNat]
  rw [or_shift (i := 8) (by omega), or_shift (i := 16) (by omega), or_shift (i := 24) (by omega)]
  omega

/-- **Four bytes come back.** -/
theorem byteAt_joined (b : ℕ → UInt8) {k : ℕ} (hk : k < 4) :
    byteAt (joined (b 0) (b 1) (b 2) (b 3)) k = b k := by
  have h₀ := (b 0).toNat_lt
  have h₁ := (b 1).toNat_lt
  have h₂ := (b 2).toNat_lt
  have h₃ := (b 3).toNat_lt
  refine UInt8.toNat_inj.mp ?_
  rw [byteAt, toNat_joined, UInt8.toNat_ofNat', Nat.mod_mod]
  have hcases : k = 0 ∨ k = 1 ∨ k = 2 ∨ k = 3 := by omega
  rcases hcases with rfl | rfl | rfl | rfl <;> omega

/-! One byte: the storage has it in the alpha of a white pixel. -/

/-- The pixel of one byte. -/
def whiteWith (a : UInt8) : UInt32 :=
  (a.toUInt32 <<< 24) ||| 0x00ffffff

theorem alphaOf_whiteWith_nat : ∀ n < 256, alphaOf (whiteWith (UInt8.ofNat n)) =
    if UInt8.ofNat n = 0 then 0xff else UInt8.ofNat n := by
  decide +kernel

/-- **A byte comes back unless it is zero.** -/
theorem alphaOf_whiteWith (a : UInt8) : alphaOf (whiteWith a) = if a = 0 then 0xff else a := by
  have h := alphaOf_whiteWith_nat a.toNat a.toNat_lt
  rwa [UInt8.ofNat_toNat] at h

/-! Two bytes: five, six and five bits, widened to eight and narrowed
again. -/

theorem widened_five : ∀ c < 32, c * 255 / 31 < 256 ∧ c * 255 / 31 / 8 = c := by decide

theorem widened_six : ∀ c < 64, c * 255 / 63 < 256 ∧ c * 255 / 63 / 4 = c := by decide

/-- A field of a number. -/
theorem toNat_field (p s mask : UInt32) (m : ℕ) (hs : s.toNat < 32)
    (hmask : mask.toNat = 2 ^ m - 1) :
    ((p >>> s) &&& mask).toNat = p.toNat / 2 ^ s.toNat % 2 ^ m := by
  rw [UInt32.toNat_and, UInt32.toNat_shiftRight, Nat.mod_eq_of_lt hs, hmask,
    Nat.and_two_pow_sub_one_eq_mod, Nat.shiftRight_eq_div_pow]

/-- A channel, widened. -/
theorem toNat_widened {c : UInt32} (top : UInt32) (hc : c.toNat < 64) :
    (c * 255 / top).toNat = c.toNat * 255 / top.toNat := by
  have hmax : (255 : UInt32).toNat = 255 := rfl
  rw [UInt32.toNat_div, UInt32.toNat_mul, hmax, Nat.mod_eq_of_lt (by omega)]

/-- A channel at its place. -/
theorem toNat_placed {c s : UInt32} (hs : s.toNat < 32) (hc : c.toNat * 2 ^ s.toNat < 2 ^ 32) :
    (c <<< s).toNat = c.toNat <<< s.toNat := by
  rw [UInt32.toNat_shiftLeft, Nat.mod_eq_of_lt hs, Nat.mod_eq_of_lt]
  rwa [Nat.shiftLeft_eq]

theorem toNat_widen565 (p : UInt32) : (BitmapState.widen565 p).toNat =
    255 * 16777216 + (p.toNat / 2048 % 32 * 255 / 31) * 65536 +
      (p.toNat / 32 % 64 * 255 / 63) * 256 + p.toNat % 32 * 255 / 31 := by
  have hred := (widened_five (p.toNat / 2048 % 32) (Nat.mod_lt _ (by decide))).1
  have hgreen := (widened_six (p.toNat / 32 % 64) (Nat.mod_lt _ (by decide))).1
  have hblue := (widened_five (p.toNat % 32) (Nat.mod_lt _ (by decide))).1
  have hr : (((p >>> 11) &&& 0x1f) * 255 / 31).toNat = p.toNat / 2048 % 32 * 255 / 31 := by
    have hfield := toNat_field p 11 0x1f 5 (by decide) rfl
    rw [toNat_widened _ (by rw [hfield]; omega), hfield]
    rfl
  have hg : (((p >>> 5) &&& 0x3f) * 255 / 63).toNat = p.toNat / 32 % 64 * 255 / 63 := by
    have hfield := toNat_field p 5 0x3f 6 (by decide) rfl
    rw [toNat_widened _ (by rw [hfield]; omega), hfield]
    rfl
  have hb : ((p &&& 0x1f) * 255 / 31).toNat = p.toNat % 32 * 255 / 31 := by
    have hfield : (p &&& 0x1f).toNat = p.toNat % 32 := by
      rw [UInt32.toNat_and]
      exact Nat.and_two_pow_sub_one_eq_mod p.toNat 5
    rw [toNat_widened _ (by rw [hfield]; omega), hfield]
    rfl
  have hhigh : (0xff000000 : UInt32).toNat = 255 <<< 24 := rfl
  simp only [BitmapState.widen565, UInt32.toNat_or, hhigh, Nat.or_assoc]
  rw [toNat_placed (c := ((p >>> 11) &&& 0x1f) * 255 / 31) (s := 16) (by decide) ?_,
    toNat_placed (c := ((p >>> 5) &&& 0x3f) * 255 / 63) (s := 8) (by decide) ?_, hr, hg, hb]
  · simp only [UInt32.reduceToNat]
    rw [shift_or (i := 8) hblue, shift_or (i := 16) (by omega), shift_or (i := 24) (by omega)]
    omega
  · rw [hg]
    simp only [UInt32.reduceToNat]
    omega
  · rw [hr]
    simp only [UInt32.reduceToNat]
    omega

theorem toNat_narrow565 (p : UInt32) : (narrow565 p).toNat =
    p.toNat / 524288 % 32 * 2048 + p.toNat / 1024 % 64 * 32 + p.toNat / 8 % 32 := by
  have hred := toNat_field p 19 0x1f 5 (by decide) rfl
  have hgreen := toNat_field p 10 0x3f 6 (by decide) rfl
  have hblue := toNat_field p 3 0x1f 5 (by decide) rfl
  simp only [narrow565, UInt32.toNat_or, Nat.or_assoc]
  rw [toNat_placed (s := 11) (by decide) ?_, toNat_placed (s := 5) (by decide) ?_, hred, hgreen,
    hblue]
  · simp only [UInt32.reduceToNat]
    rw [shift_or (i := 5) (by omega), shift_or (i := 11) (by omega)]
    omega
  · rw [hgreen]
    simp only [UInt32.reduceToNat]
    omega
  · rw [hred]
    simp only [UInt32.reduceToNat]
    omega

theorem channels_of_four_bytes {r g b : ℕ} (hr : r < 256) (hg : g < 256) (hb : b < 256) :
    (255 * 16777216 + r * 65536 + g * 256 + b) / 524288 % 32 = r / 8 ∧
      (255 * 16777216 + r * 65536 + g * 256 + b) / 1024 % 64 = g / 4 ∧
      (255 * 16777216 + r * 65536 + g * 256 + b) / 8 % 32 = b / 8 := by
  omega

theorem fields_of_two_bytes {n : ℕ} (h : n < 65536) :
    n / 2048 % 32 * 2048 + n / 32 % 64 * 32 + n % 32 = n := by
  omega

/-- **Two bytes come back.** -/
theorem narrow565_widen565 {p : UInt32} (hp : p.toNat < 65536) :
    narrow565 (BitmapState.widen565 p) = p := by
  obtain ⟨hred, hred'⟩ := widened_five (p.toNat / 2048 % 32) (Nat.mod_lt _ (by decide))
  obtain ⟨hgreen, hgreen'⟩ := widened_six (p.toNat / 32 % 64) (Nat.mod_lt _ (by decide))
  obtain ⟨hblue, hblue'⟩ := widened_five (p.toNat % 32) (Nat.mod_lt _ (by decide))
  refine UInt32.toNat_inj.mp ?_
  rw [toNat_narrow565, toNat_widen565]
  obtain ⟨hr, hg, hb⟩ := channels_of_four_bytes hred hgreen hblue
  rw [hr, hg, hb, hred', hgreen', hblue']
  exact fields_of_two_bytes hp

/-! ## Bitmaps and buffers -/

/-- A bitmap that is live: of a size that `muplar_alloc_bitmap` gives, of a
configuration that `nativeCreate` sets, with a storage for its pixels. -/
structure LiveBitmap where
  state : BitmapState
  /-- what lies in memory from the storage on, behind its end -/
  behind : ℕ → UInt8
  width_pos : 0 < state.width
  width_lt : state.width < 2 ^ 31
  height_pos : 0 < state.height
  height_lt : state.height < 2 ^ 31
  configured : ∃ config, state.bytesPerPixel = BitmapState.bytesPerPixelOf config
  length_pixels : state.pixels.length = state.height.toNat * state.width.toNat

/-- The bitmap that `nativeCreate` makes is live. -/
def LiveBitmap.created (colors : Option (ℤ → UInt32)) (offset stride width height config : ℤ)
    (behind : ℕ → UInt8) (hwidth : width < 2 ^ 31) (hheight : height < 2 ^ 31) : LiveBitmap where
  state := .create colors offset stride width height config
  behind := behind
  width_pos := by
    simp only [BitmapState.create, BitmapState.blank]
    split <;> omega
  width_lt := by
    simp only [BitmapState.create, BitmapState.blank]
    split <;> omega
  height_pos := by
    simp only [BitmapState.create, BitmapState.blank]
    split <;> omega
  height_lt := by
    simp only [BitmapState.create, BitmapState.blank]
    split <;> omega
  configured := ⟨config, rfl⟩
  length_pixels := by
    simp only [BitmapState.create, BitmapState.blank]
    cases colors with
    | none => exact List.length_replicate
    | some color =>
      dsimp only
      split
      · next hsize =>
        rw [List.length_map, List.length_range, if_neg (not_le.mpr hsize.1),
          if_neg (not_le.mpr hsize.2)]
      · exact List.length_replicate

inductive BufferKind
  | byte
  | short
  | int
  deriving DecidableEq

def BufferKind.shift : BufferKind → ℕ
  | .byte => 0
  | .short => 1
  | .int => 2

inductive Backing
  | direct
  /-- an array, and `arrayOffset` -/
  | array (offset : ℕ)
  deriving DecidableEq

def Backing.offset : Backing → ℕ
  | .direct => 0
  | .array offset => offset

/-- A buffer of the Java side. Offsets and positions count elements, and
are `int`s; the memory starts at the address of a direct buffer, or at the
first element of the array. -/
structure PixelBuffer where
  kind : BufferKind
  backing : Backing
  position : ℕ
  memory : ℤ → UInt8
  /-- how many bytes there are up to the limit -/
  size : ℕ
  index_lt : backing.offset + position < 2 ^ 31

namespace LiveBitmap

def count (b : LiveBitmap) : ℕ :=
  b.state.width.toNat * b.state.height.toNat

def bpp (b : LiveBitmap) : ℕ :=
  if 0 < b.state.bytesPerPixel then b.state.bytesPerPixel.toNat else 4

/-- `nativeRowBytes`, a `jint`. -/
def rowBytes (b : LiveBitmap) : ℤ :=
  (b.state.width * b.bpp).bmod (2 ^ 32)

def pixel (b : LiveBitmap) (i : ℕ) : UInt32 :=
  b.state.pixels.getD i 0

/-- A byte from the storage on, as `memcpy` reads it. -/
def storageByte (b : LiveBitmap) (k : ℕ) : UInt8 :=
  if k < 4 * b.count then byteAt (b.pixel (k / 4)) (k % 4) else b.behind k

end LiveBitmap

/-- Where the position of a buffer is, in bytes. -/
def PixelBuffer.start (buf : PixelBuffer) : ℤ :=
  ((buf.backing.offset + buf.position) * 2 ^ buf.kind.shift : ℕ)

/-- Where the copies go to: `direct + pos`, or
`raw + ((arr_off + pos) << shift)` as an `int`. -/
def PixelBuffer.origin (buf : PixelBuffer) : ℤ :=
  match buf.backing with
  | .direct => buf.position
  | .array offset => ((offset + buf.position) * 2 ^ buf.kind.shift : ℤ).bmod (2 ^ 32)

/-! ## The copies -/

/-- The byte that `nativeCopyPixelsToBuffer` writes as its `k`-th. -/
def written (b : LiveBitmap) (k : ℕ) : UInt8 :=
  if b.bpp = 1 then alphaOf (b.pixel k)
  else if b.bpp = 2 then byteAt (narrow565 (b.pixel (k / 2))) (k % 2)
  else b.storageByte k

/-- `Bitmap_nativeCopyPixelsToBuffer`. -/
def copyPixelsToBuffer (b : LiveBitmap) (buf : PixelBuffer) : PixelBuffer :=
  { buf with
    memory := fun at' =>
      if buf.origin ≤ at' ∧ at' < buf.origin + (b.count * b.bpp : ℕ) then
        written b (at' - buf.origin).toNat
      else buf.memory at' }

/-- `Bitmap_nativeCopyPixelsFromBuffer`; a `memcpy` may go on behind the
storage. -/
def copyPixelsFromBuffer (b : LiveBitmap) (buf : PixelBuffer) : LiveBitmap :=
  { b with
    state := b.state.copyPixelsFromBuffer fun k => buf.memory (buf.origin + k)
    behind := fun k =>
      if b.bpp ≠ 1 ∧ b.bpp ≠ 2 ∧ k < b.count * b.bpp then buf.memory (buf.origin + k)
      else b.behind k
    length_pixels := by
      rw [BitmapState.copyPixelsFromBuffer, List.length_map, List.length_range]
      exact b.length_pixels }

/-- What a copy touches: so many bytes from there on, of the storage or of
the buffer. -/
inductive Access
  | pixels (at' len : ℕ)
  | buffer (at' : ℤ) (len : ℕ)

/-- The accesses of either copy: pixel by pixel in the loops of one and two
bytes, and one `memcpy` else. -/
def accesses (b : LiveBitmap) (buf : PixelBuffer) : List Access :=
  if b.bpp = 1 ∨ b.bpp = 2 then
    (List.range b.count).flatMap fun i =>
      [.pixels (4 * i) 4, .buffer (buf.origin + (i * b.bpp : ℕ)) b.bpp]
  else [.pixels 0 (b.count * b.bpp), .buffer buf.origin (b.count * b.bpp)]

/-! ## What the copies should do -/

/-- The size of the pixels of a bitmap in a buffer, as the Java side is
told. -/
def advertised (b : LiveBitmap) : ℤ :=
  b.rowBytes * b.state.height

/-- The bytes of a buffer that a copy is about. -/
def window (b : LiveBitmap) (buf : PixelBuffer) : List UInt8 :=
  (List.range (advertised b).toNat).map fun (k : ℕ) => buf.memory (buf.start + k)

/-- The storage is touched within its cells, the buffer within its
window. -/
def Contained (b : LiveBitmap) (buf : PixelBuffer) : Prop :=
  ∀ a ∈ accesses b buf, match a with
    | .pixels at' len => at' + len ≤ 4 * b.count
    | .buffer at' len => buf.start ≤ at' ∧ at' + len ≤ buf.start + advertised b

/-- A bitmap and two buffers with room for its pixels. -/
structure Transfer where
  bitmap : LiveBitmap
  src : PixelBuffer
  dst : PixelBuffer
  src_fits : src.start + advertised bitmap ≤ src.size
  dst_fits : dst.start + advertised bitmap ≤ dst.size

/-- **Bounded and lossless.** Copies stay where they belong; what is copied
does not depend on the buffer that it is copied to or from; and what was
copied from one comes back in the other. -/
structure Faithful (t : Transfer) : Prop where
  src_contained : Contained t.bitmap t.src
  dst_contained : Contained t.bitmap t.dst
  same_written : window t.bitmap (copyPixelsToBuffer t.bitmap t.src) =
    window t.bitmap (copyPixelsToBuffer t.bitmap t.dst)
  same_read : window t.bitmap t.src = window t.bitmap t.dst →
    (copyPixelsFromBuffer t.bitmap t.src).state = (copyPixelsFromBuffer t.bitmap t.dst).state
  round_trip : window t.bitmap (copyPixelsToBuffer (copyPixelsFromBuffer t.bitmap t.src) t.dst) =
    window t.bitmap t.src

/-- The position is taken for what it is: a direct buffer is one of bytes,
or stands at its start; and the place in an array is an `int`. -/
def Placed (buf : PixelBuffer) : Prop :=
  match buf.backing with
  | .direct => buf.kind = .byte ∨ buf.position = 0
  | .array offset => (offset + buf.position) * 2 ^ buf.kind.shift < 2 ^ 31

/-! ## Sizes and places -/

section Places

variable {b : LiveBitmap} {buf : PixelBuffer}

theorem bpp_cases (b : LiveBitmap) : b.bpp = 1 ∨ b.bpp = 2 ∨ b.bpp = 4 ∨ b.bpp = 8 := by
  obtain ⟨config, hconfig⟩ := b.configured
  rw [LiveBitmap.bpp, hconfig, BitmapState.bytesPerPixelOf]
  split_ifs <;> simp_all

theorem count_pos (b : LiveBitmap) : 0 < b.count := by
  have hwidth := b.width_pos
  have hheight := b.height_pos
  exact Nat.mul_pos (by omega) (by omega)

theorem count_mul_bpp (b : LiveBitmap) :
    ((b.count * b.bpp : ℕ) : ℤ) = b.state.width * b.bpp * b.state.height := by
  rw [LiveBitmap.count]
  push_cast
  rw [Int.toNat_of_nonneg b.width_pos.le, Int.toNat_of_nonneg b.height_pos.le]
  ring

/-- Without overflow the pixels have the size that is advertised. -/
theorem advertised_eq (h : b.state.width * b.bpp < 2 ^ 31) :
    advertised b = (b.count * b.bpp : ℕ) := by
  have hwidth := b.width_pos
  have hnonneg : 0 ≤ b.state.width * b.bpp := mul_nonneg hwidth.le (Int.natCast_nonneg _)
  rw [advertised, LiveBitmap.rowBytes, Int.bmod_eq_of_le (by omega) (by omega), count_mul_bpp]

/-- With it they are larger. -/
theorem advertised_lt (h : ¬b.state.width * b.bpp < 2 ^ 31) :
    advertised b < (b.count * b.bpp : ℕ) := by
  have hrow : b.rowBytes < b.state.width * b.bpp := by
    have hlt : b.rowBytes < ((2 ^ 32 : ℕ) + 1) / 2 := Int.bmod_lt (by decide)
    omega
  rw [count_mul_bpp, advertised]
  exact mul_lt_mul_of_pos_right hrow b.height_pos

theorem origin_eq_start (h : Placed buf) : buf.origin = buf.start := by
  rw [Placed] at h
  rw [PixelBuffer.origin, PixelBuffer.start]
  cases hbacking : buf.backing with
  | direct =>
    rw [hbacking] at h
    rcases h with hkind | hposition
    · simp [hkind, BufferKind.shift, Backing.offset]
    · simp [hposition, Backing.offset]
  | array offset =>
    rw [hbacking] at h
    dsimp only [Backing.offset] at h ⊢
    rw [Int.bmod_eq_of_le]
    · push_cast
      rfl
    · exact (by decide : -((2 ^ 32 : ℕ) / 2 : ℤ) ≤ 0).trans (by positivity)
    · have hlt : ((offset : ℤ) + buf.position) * 2 ^ buf.kind.shift < 2 ^ 31 := by exact_mod_cast h
      exact hlt.trans_le (by decide)

/-- A position that is not taken for what it is lies too early. -/
theorem origin_lt_start (h : ¬Placed buf) : buf.origin < buf.start := by
  rw [Placed] at h
  rw [PixelBuffer.origin, PixelBuffer.start]
  cases hbacking : buf.backing with
  | direct =>
    rw [hbacking] at h
    obtain ⟨hkind, hposition⟩ := not_or.mp h
    cases hshift : buf.kind with
    | byte => exact absurd hshift hkind
    | short | int =>
      simp only [BufferKind.shift, Backing.offset]
      omega
  | array offset =>
    rw [hbacking] at h
    dsimp only [Backing.offset] at h ⊢
    have hlt : (((offset + buf.position) * 2 ^ buf.kind.shift : ℤ)).bmod (2 ^ 32) <
        ((2 ^ 32 : ℕ) + 1) / 2 := Int.bmod_lt (by decide)
    have hle : (2 ^ 31 : ℤ) ≤ ((offset + buf.position) * 2 ^ buf.kind.shift : ℕ) := by
      exact_mod_cast not_lt.mp h
    omega

/-- Both ends of the window are touched. -/
theorem ends_touched (b : LiveBitmap) (buf : PixelBuffer) :
    (∃ len, Access.buffer buf.origin len ∈ accesses b buf) ∧
      ∃ at' len, Access.buffer at' len ∈ accesses b buf ∧
        at' + (len : ℕ) = buf.origin + (b.count * b.bpp : ℕ) := by
  have hcount := count_pos b
  rw [accesses]
  split
  · constructor
    · refine ⟨b.bpp, List.mem_flatMap.mpr ⟨0, List.mem_range.mpr hcount, ?_⟩⟩
      simp
    · refine ⟨buf.origin + ((b.count - 1) * b.bpp : ℕ), b.bpp,
        List.mem_flatMap.mpr ⟨b.count - 1, List.mem_range.mpr (by omega), by simp⟩, ?_⟩
      obtain ⟨n, hn⟩ : ∃ n, b.count = n + 1 := ⟨b.count - 1, by omega⟩
      rw [hn, Nat.add_sub_cancel, Nat.succ_mul, Nat.cast_add, add_assoc]
  · have hmem : Access.buffer buf.origin (b.count * b.bpp) ∈
        [.pixels 0 (b.count * b.bpp), .buffer buf.origin (b.count * b.bpp)] :=
      List.mem_cons_of_mem _ List.mem_cons_self
    exact ⟨⟨_, hmem⟩, _, _, hmem, rfl⟩

/-- The storage is touched within eight bytes a pixel, within its cells if
there are not eight; the buffer is touched between the ends. -/
theorem touched (b : LiveBitmap) (buf : PixelBuffer) {a : Access} (ha : a ∈ accesses b buf) :
    match a with
      | .pixels at' len => b.bpp ≠ 8 → at' + len ≤ 4 * b.count
      | .buffer at' len =>
        buf.origin ≤ at' ∧ at' + (len : ℕ) ≤ buf.origin + (b.count * b.bpp : ℕ) := by
  rw [accesses] at ha
  split at ha
  · obtain ⟨i, hi, ha⟩ := List.mem_flatMap.mp ha
    have hi := List.mem_range.mp hi
    simp only [List.mem_cons, List.not_mem_nil, or_false] at ha
    rcases ha with rfl | rfl
    · intro _
      omega
    · have hmul : (i + 1) * b.bpp ≤ b.count * b.bpp := Nat.mul_le_mul_right _ hi
      rw [Nat.succ_mul] at hmul
      constructor <;> omega
  · next hbpp =>
    simp only [List.mem_cons, List.not_mem_nil, or_false] at ha
    rcases ha with rfl | rfl
    · intro height
      have hfour : b.bpp = 4 := by
        have := bpp_cases b
        omega
      rw [hfour]
      omega
    · exact ⟨le_rfl, le_rfl⟩

/-- **Where the copies stay**: exactly with less than eight bytes a pixel,
rows that an `int` can measure, and a position that is taken for what it
is. -/
theorem contained_iff (b : LiveBitmap) (buf : PixelBuffer) :
    Contained b buf ↔ b.bpp ≠ 8 ∧ b.state.width * b.bpp < 2 ^ 31 ∧ Placed buf := by
  constructor
  · intro h
    obtain ⟨⟨len, hfirst⟩, at', len', hlast, hend⟩ := ends_touched b buf
    have hstart := (h _ hfirst).1
    have hwithin := (h _ hlast).2
    have hplaced : Placed buf := by
      by_contra hno
      have := origin_lt_start hno
      omega
    have horigin := origin_eq_start hplaced
    refine ⟨fun height => ?_, ?_, hplaced⟩
    · have hmem : Access.pixels 0 (b.count * b.bpp) ∈ accesses b buf := by
        rw [accesses, if_neg (by omega)]
        exact List.mem_cons_self
      have hover : 0 + b.count * b.bpp ≤ 4 * b.count := h _ hmem
      have hcount := count_pos b
      rw [height] at hover
      omega
    · by_contra hno
      have := advertised_lt hno
      omega
  · rintro ⟨height, hrow, hplaced⟩ a ha
    have htouched := touched b buf ha
    rw [origin_eq_start hplaced] at htouched
    cases a with
    | pixels at' len => exact htouched height
    | buffer at' len =>
      rw [advertised_eq hrow]
      exact htouched

end Places

/-! ## What is copied -/

section Copies

variable {b : LiveBitmap} {buf : PixelBuffer}

/-- What is written does not depend on the buffer. -/
theorem window_copyPixelsToBuffer (hrow : b.state.width * b.bpp < 2 ^ 31) (hplaced : Placed buf) :
    window b (copyPixelsToBuffer b buf) = (List.range (b.count * b.bpp)).map (written b) := by
  rw [window, advertised_eq hrow, Int.toNat_natCast]
  refine List.map_congr_left fun k hk => ?_
  have hk := List.mem_range.mp hk
  have hstart : (copyPixelsToBuffer b buf).start = buf.origin := (origin_eq_start hplaced).symm
  rw [hstart, copyPixelsToBuffer]
  dsimp only
  rw [if_pos (by omega)]
  congr 1
  omega

theorem window_eq (hrow : b.state.width * b.bpp < 2 ^ 31) (hplaced : Placed buf) :
    window b buf = (List.range (b.count * b.bpp)).map
      fun (k : ℕ) => buf.memory (buf.origin + k) := by
  rw [window, advertised_eq hrow, Int.toNat_natCast, origin_eq_start hplaced]

/-- The bytes that a pixel is read from. -/
def readPixel (b : LiveBitmap) (src : ℕ → UInt8) (i : ℕ) : UInt32 :=
  if b.bpp = 1 then whiteWith (src i)
  else if b.bpp = 2 then
    BitmapState.widen565 ((src (2 * i)).toUInt32 ||| (src (2 * i + 1)).toUInt32 <<< 8)
  else joined (src (4 * i)) (src (4 * i + 1)) (src (4 * i + 2)) (src (4 * i + 3))

theorem copied_pixels (b : LiveBitmap) (src : ℕ → UInt8) :
    (b.state.copyPixelsFromBuffer src).pixels = (List.range b.count).map (readPixel b src) := by
  have hbpp : (if 0 < b.state.bytesPerPixel then b.state.bytesPerPixel else 4) = (b.bpp : ℤ) := by
    rw [LiveBitmap.bpp]
    split
    · next hpos => exact (Int.toNat_of_nonneg hpos.le).symm
    · rfl
  rw [BitmapState.copyPixelsFromBuffer, b.length_pixels, Nat.mul_comm, ← LiveBitmap.count]
  refine List.map_congr_left fun i _ => ?_
  rw [hbpp, readPixel]
  exact if_congr (by omega) rfl (if_congr (by omega) rfl rfl)

theorem pixel_copied {i : ℕ} (hi : i < b.count) : (copyPixelsFromBuffer b buf).pixel i =
    readPixel b (fun k => buf.memory (buf.origin + k)) i := by
  rw [LiveBitmap.pixel, copyPixelsFromBuffer, copied_pixels, List.getD_eq_getElem?_getD,
    List.getElem?_map, List.getElem?_range hi]
  rfl

/-- Bytes that agree up to the size of the pixels give the same pixels. -/
theorem readPixel_congr {src src' : ℕ → UInt8} (hbpp : b.bpp ≠ 8)
    (h : ∀ k < b.count * b.bpp, src k = src' k) {i : ℕ} (hi : i < b.count) :
    readPixel b src i = readPixel b src' i := by
  rw [readPixel, readPixel]
  rcases bpp_cases b with hone | htwo | hfour | height
  · rw [if_pos hone, if_pos hone, h i (by rw [hone]; omega)]
  · rw [htwo] at h ⊢
    simp only [show ¬(2 = 1) by decide, if_false, if_true, h (2 * i) (by omega),
      h (2 * i + 1) (by omega)]
  · rw [hfour] at h ⊢
    simp only [show ¬(4 = 1) by decide, show ¬(4 = 2) by decide, if_false, h (4 * i) (by omega),
      h (4 * i + 1) (by omega), h (4 * i + 2) (by omega), h (4 * i + 3) (by omega)]
  · exact absurd height hbpp

/-- Two bytes as one number. -/
theorem toNat_twoBytes (b₀ b₁ : UInt8) :
    (b₀.toUInt32 ||| b₁.toUInt32 <<< 8).toNat = b₀.toNat + b₁.toNat * 256 := by
  have h₀ := b₀.toNat_lt
  have h₁ := b₁.toNat_lt
  rw [UInt32.toNat_or, toNat_placed (by decide), UInt8.toNat_toUInt32, UInt8.toNat_toUInt32,
    or_shift (by exact h₀)]
  · simp only [UInt32.reduceToNat]
    omega
  · rw [UInt8.toNat_toUInt32]
    simp only [UInt32.reduceToNat]
    omega

theorem byteAt_twoBytes (src : ℕ → UInt8) {j : ℕ} (hj : j < 2) :
    byteAt ((src 0).toUInt32 ||| (src 1).toUInt32 <<< 8) j = src j := by
  have h₀ := (src 0).toNat_lt
  have h₁ := (src 1).toNat_lt
  refine UInt8.toNat_inj.mp ?_
  rw [byteAt, toNat_twoBytes, UInt8.toNat_ofNat', Nat.mod_mod]
  have hcases : j = 0 ∨ j = 1 := by omega
  rcases hcases with rfl | rfl <;> omega

/-- **The bytes come back**, but for a zero that was the alpha of a
pixel. -/
theorem written_copied (hbpp : b.bpp ≠ 8) {k : ℕ} (hk : k < b.count * b.bpp) :
    written (copyPixelsFromBuffer b buf) k =
      if b.bpp = 1 ∧ buf.memory (buf.origin + k) = 0 then 0xff
      else buf.memory (buf.origin + k) := by
  have hsame : (copyPixelsFromBuffer b buf).bpp = b.bpp := rfl
  have hcount : (copyPixelsFromBuffer b buf).count = b.count := rfl
  rw [written, hsame]
  rcases bpp_cases b with hone | htwo | hfour | height
  · rw [if_pos hone, pixel_copied (by rw [hone] at hk; omega), readPixel, if_pos hone,
      alphaOf_whiteWith]
    exact if_congr (by simp [hone]) rfl rfl
  · rw [htwo] at hk
    have hpixel := @pixel_copied b buf (k / 2) (by omega)
    rw [readPixel, htwo, if_neg (by decide), if_pos rfl] at hpixel
    have hword := toNat_twoBytes (buf.memory (buf.origin + (2 * (k / 2) : ℕ)))
      (buf.memory (buf.origin + (2 * (k / 2) + 1 : ℕ)))
    have hlow := (buf.memory (buf.origin + (2 * (k / 2) : ℕ))).toNat_lt
    have hhigh := (buf.memory (buf.origin + (2 * (k / 2) + 1 : ℕ))).toNat_lt
    have hbyte := byteAt_twoBytes (fun j => buf.memory (buf.origin + (2 * (k / 2) + j : ℕ)))
      (Nat.mod_lt k (by decide : 0 < 2))
    rw [htwo, if_neg (by decide), if_pos rfl, if_neg (by simp), hpixel,
      narrow565_widen565 (by rw [hword]; omega)]
    refine hbyte.trans ?_
    rw [Nat.div_add_mod]
  · rw [hfour] at hk
    have hpixel := @pixel_copied b buf (k / 4) (by omega)
    rw [readPixel, hfour, if_neg (by decide), if_neg (by decide)] at hpixel
    have hbyte := byteAt_joined (fun j => buf.memory (buf.origin + (4 * (k / 4) + j : ℕ)))
      (Nat.mod_lt k (by decide : 0 < 4))
    rw [hfour, if_neg (by decide), if_neg (by decide), if_neg (by simp), LiveBitmap.storageByte,
      hcount, if_pos (by omega), hpixel]
    refine hbyte.trans ?_
    rw [Nat.div_add_mod]
  · exact absurd height hbpp

end Copies

/-- **When the copies are bounded and lossless.** Exactly with less than
eight bytes a pixel, rows that an `int` can measure, positions that are
taken for what they are, and no zero among bytes that become alpha. -/
theorem faithful_iff (t : Transfer) : Faithful t ↔
    t.bitmap.bpp ≠ 8 ∧ t.bitmap.state.width * t.bitmap.bpp < 2 ^ 31 ∧
      Placed t.src ∧ Placed t.dst ∧ (t.bitmap.bpp = 1 → 0 ∉ window t.bitmap t.src) := by
  have hreturns : t.bitmap.bpp ≠ 8 → t.bitmap.state.width * t.bitmap.bpp < 2 ^ 31 →
      Placed t.src → Placed t.dst →
      window t.bitmap (copyPixelsToBuffer (copyPixelsFromBuffer t.bitmap t.src) t.dst) =
        (window t.bitmap t.src).map fun c => if t.bitmap.bpp = 1 ∧ c = 0 then 0xff else c := by
    intro hbpp hrow hsrc hdst
    have hwritten := window_copyPixelsToBuffer (b := copyPixelsFromBuffer t.bitmap t.src) hrow hdst
    rw [window_eq hrow hsrc, List.map_map]
    refine hwritten.trans (List.map_congr_left fun k hk => ?_)
    exact written_copied hbpp (List.mem_range.mp hk)
  constructor
  · intro h
    obtain ⟨hbpp, hrow, hsrc⟩ := (contained_iff t.bitmap t.src).mp h.src_contained
    obtain ⟨-, -, hdst⟩ := (contained_iff t.bitmap t.dst).mp h.dst_contained
    refine ⟨hbpp, hrow, hsrc, hdst, fun hone hzero => ?_⟩
    have hround := h.round_trip
    rw [hreturns hbpp hrow hsrc hdst] at hround
    have hfixed := List.map_inj_left.mp (hround.trans (List.map_id _).symm) 0 hzero
    rw [if_pos ⟨hone, rfl⟩] at hfixed
    exact absurd hfixed (by decide)
  · rintro ⟨hbpp, hrow, hsrc, hdst, hzero⟩
    exact {
      src_contained := (contained_iff t.bitmap t.src).mpr ⟨hbpp, hrow, hsrc⟩
      dst_contained := (contained_iff t.bitmap t.dst).mpr ⟨hbpp, hrow, hdst⟩
      same_written := by
        rw [window_copyPixelsToBuffer hrow hsrc, window_copyPixelsToBuffer hrow hdst]
      same_read := by
        intro hwindow
        rw [window_eq hrow hsrc, window_eq hrow hdst] at hwindow
        have hbytes := List.map_inj_left.mp hwindow
        have hpixels := fun i (hi : i ∈ List.range t.bitmap.count) =>
          readPixel_congr hbpp (fun k hk => hbytes k (List.mem_range.mpr hk)) (List.mem_range.mp hi)
        have hcopied := List.map_congr_left hpixels
        rw [← copied_pixels, ← copied_pixels] at hcopied
        exact congrArg (fun pixels => { t.bitmap.state with pixels }) hcopied
      round_trip := by
        rw [hreturns hbpp hrow hsrc hdst]
        conv_rhs => rw [← List.map_id (window t.bitmap t.src)]
        refine List.map_congr_left fun c hc => if_neg ?_
        rintro ⟨hone, rfl⟩
        exact hzero hone hc }

/-- A direct buffer of bytes that are zero. -/
def zeroBytes : PixelBuffer where
  kind := .byte
  backing := .direct
  position := 0
  memory _ := 0
  size := 1
  index_lt := by decide

/-- One pixel of alpha, and a buffer with a zero. -/
def zeroAlpha : Transfer where
  bitmap := .created none 0 0 1 1 1 (fun _ => 0) (by decide) (by decide)
  src := zeroBytes
  dst := zeroBytes
  src_fits := by decide
  dst_fits := by decide

/-- **Transparency is lost**: the zero comes back as 255. -/
theorem transparent_comes_back_opaque : ¬∀ t : Transfer, Faithful t := by
  intro h
  have hround := (h zeroAlpha).round_trip
  exact absurd hround (by decide)

end PixelBuffers

end Shim

end Muplar
