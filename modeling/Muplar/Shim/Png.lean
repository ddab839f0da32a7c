import Muplar.Common.Png
import Muplar.Shim.PixelBuffers
/-!
# PNG output

`muplar_bitmap_to_png` writes the rows of a bitmap into one buffer, stored
blocks of them into a second, and the chunks into a third. Each buffer
grows by reallocations that may fail, and keeps a flag that says whether
one did. The flag of the first buffer is looked at early and the flag of
the third at the end.

A bitmap of one colour is not written as it is: `muplar_sample_pixel` puts
a pattern in its place.
-/

namespace Muplar

namespace Shim

namespace PngOutput

open Checksums PixelBuffers

/-! ## Buffers -/

/-- `muplar_byte_buffer`, which is zero to begin with but for `ok`. -/
structure ByteBuffer where
  data : Bytes := []
  cap : ℕ := 0
  ok : Bool := true
  /-- how often more memory was asked for -/
  asked : ℕ := 0

def sizeMax : ℕ := 2 ^ 64 - 1

/-- The loop that doubles a capacity; it ends after 64 rounds. -/
def grow (need : ℕ) : ℕ → ℕ → ℕ
  | 0, next => next
  | fuel + 1, next =>
    if next < need then if next > sizeMax / 2 then need else grow need fuel (next * 2)
    else next

/-- `muplar_buf_reserve`; the world grants the `n`-th reallocation or
not. -/
def reserve (grant : ℕ → Bool) (buf : ByteBuffer) (extra : ℕ) : Bool × ByteBuffer :=
  if !buf.ok then (false, buf)
  else if extra > sizeMax - buf.data.length then (false, { buf with ok := false })
  else if buf.data.length + extra ≤ buf.cap then (true, buf)
  else
    let next := grow (buf.data.length + extra) 64 (if buf.cap ≠ 0 then buf.cap else 4096)
    if grant buf.asked then (true, { buf with cap := next, asked := buf.asked + 1 })
    else (false, { buf with ok := false, asked := buf.asked + 1 })

/-- `muplar_buf_append`. -/
def append (grant : ℕ → Bool) (buf : ByteBuffer) (data : Bytes) : ByteBuffer :=
  match reserve grant buf data.length with
  | (true, buf) => { buf with data := buf.data ++ data }
  | (false, buf) => buf

/-- `muplar_buf_u8`. -/
def u8 (grant : ℕ → Bool) (buf : ByteBuffer) (value : UInt8) : ByteBuffer :=
  append grant buf [value]

def be32Bytes (value : UInt32) : Bytes :=
  [(value >>> 24).toUInt8, (value >>> 16).toUInt8, (value >>> 8).toUInt8, value.toUInt8]

/-- `muplar_buf_be32`. -/
def be32 (grant : ℕ → Bool) (buf : ByteBuffer) (value : UInt32) : ByteBuffer :=
  append grant buf (be32Bytes value)

/-! ## Checksums and chunks -/

/-- A bit of the loop in `muplar_crc32_update`. -/
def crc32Bit (crc : UInt32) : UInt32 :=
  (crc >>> 1) ^^^ (if crc &&& 1 ≠ 0 then 0xedb88320 else 0)

/-- `muplar_crc32_update`. -/
def crc32Update (crc : UInt32) (data : Bytes) : UInt32 :=
  ~~~(data.foldl (fun crc b => crc32Bit^[8] (crc ^^^ b.toUInt32)) (~~~crc))

/-- `muplar_adler32`. -/
def adler32 (data : Bytes) : UInt32 :=
  let sums := data.foldl
    (fun (s : UInt32 × UInt32) d =>
      let a := (s.1 + d.toUInt32) % 65521
      (a, (s.2 + a) % 65521)) (1, 0)
  (sums.2 <<< 16) ||| sums.1

/-- `muplar_png_chunk`. -/
def pngChunk (grant : ℕ → Bool) (png : ByteBuffer) (type data : Bytes) : ByteBuffer :=
  let png := be32 grant png (UInt32.ofNat data.length)
  let png := append grant png type
  let png := if data.length ≠ 0 then append grant png data else png
  let crc := crc32Update 0 type
  let crc := if data.length ≠ 0 then crc32Update crc data else crc
  be32 grant png crc

/-! ## Pixels -/

/-- `muplar_bitmap_is_uniform`. -/
def isUniform (b : LiveBitmap) : Bool :=
  (List.range' 1 (b.count - 1)).all fun i => b.pixel i = b.pixel 0

/-- `muplar_sample_pixel`. -/
def samplePixel (b : LiveBitmap) (x y : ℕ) (uniform : Bool) : UInt32 :=
  let color := b.pixel (y * b.state.width.toNat + x)
  if !uniform then color
  else if y < 96 then 0xff263238
  else if (y : ℤ) > b.state.height - 120 then 0xff111111
  else if (x / 96 + y / 96) % 3 = 0 then 0xff4c8bf5
  else if (x / 96 + y / 96) % 3 = 1 then 0xff34a853
  else if color ≠ 0 then color else 0xffeeeeee

/-! ## The image -/

/-- What the world grants to the three buffers. -/
structure Grants where
  raw : ℕ → Bool
  idat : ℕ → Bool
  png : ℕ → Bool

/-- The rows, or nothing if there is no memory for them. -/
def rawBuffer (grant : ℕ → Bool) (b : LiveBitmap) : Option ByteBuffer :=
  let width := b.state.width.toNat
  let height := b.state.height.toNat
  match reserve grant {} ((width * 3 + 1) * height) with
  | (false, _) => none
  | (true, raw) =>
    let uniform := isUniform b
    some ((List.range height).foldl (fun raw y =>
      (List.range width).foldl (fun raw x =>
        let color := samplePixel b x y uniform
        let raw := u8 grant raw (color >>> 16).toUInt8
        let raw := u8 grant raw (color >>> 8).toUInt8
        u8 grant raw color.toUInt8) (u8 grant raw 0)) raw)

/-- The loop over blocks, of what remains of the rows. -/
def storeBlocks (grant : ℕ → Bool) : ℕ → Bytes → ByteBuffer → ByteBuffer
  | 0, _, idat => idat
  | fuel + 1, remaining, idat =>
    if remaining.length = 0 then idat
    else
      let block : UInt16 :=
        if remaining.length > 65535 then 65535 else UInt16.ofNat remaining.length
      let final : UInt8 := if remaining.length ≤ 65535 then 1 else 0
      let idat := u8 grant idat final
      let idat := u8 grant idat block.toUInt8
      let idat := u8 grant idat (block >>> 8).toUInt8
      let idat := u8 grant idat (~~~block).toUInt8
      let idat := u8 grant idat (~~~block >>> 8).toUInt8
      let idat := append grant idat (remaining.take block.toNat)
      storeBlocks grant fuel (remaining.drop block.toNat) idat

/-- The image data. -/
def idatBuffer (grant : ℕ → Bool) (raw : Bytes) : ByteBuffer :=
  let idat := u8 grant {} 0x78
  let idat := u8 grant idat 0x01
  let idat := storeBlocks grant raw.length raw idat
  be32 grant idat (adler32 raw)

def ihdr (b : LiveBitmap) : Bytes :=
  be32Bytes (UInt32.ofNat b.state.width.toNat) ++ be32Bytes (UInt32.ofNat b.state.height.toNat) ++
    [8, 2, 0, 0, 0]

def pngBuffer (grant : ℕ → Bool) (b : LiveBitmap) (idat : Bytes) : ByteBuffer :=
  let png := append grant {} [0x89, 80, 78, 71, 13, 10, 0x1a, 10]
  let png := pngChunk grant png (ascii "IHDR") (ihdr b)
  let png := pngChunk grant png (ascii "IDAT") idat
  pngChunk grant png (ascii "IEND") []

/-- What is reported, the output, and the buffer of the image data, which
is freed. -/
structure Output where
  success : Bool
  png : ByteBuffer
  idat : ByteBuffer

/-- `muplar_bitmap_to_png`. -/
def bitmapToPng (grants : Grants) (b : LiveBitmap) : Output :=
  match rawBuffer grants.raw b with
  | none => ⟨false, {}, {}⟩
  | some raw =>
    let idat := idatBuffer grants.idat raw.data
    let png := pngBuffer grants.png b idat.data
    ⟨png.ok, png, idat⟩

/-! ## Growing buffers -/

section Buffers

variable {grant : ℕ → Bool} {buf buf' buf'' : ByteBuffer} {bytes bytes' : Bytes} {n : ℕ}

/-- If the second buffer is in order, so is the first, and the bytes were
put behind what it had. -/
def Extends (buf buf' : ByteBuffer) (bytes : Bytes) : Prop :=
  buf'.ok = true → buf.ok = true ∧ buf'.data = buf.data ++ bytes

theorem Extends.refl : Extends buf buf [] := fun h => ⟨h, (List.append_nil _).symm⟩

theorem Extends.trans (h : Extends buf buf' bytes) (h' : Extends buf' buf'' bytes') :
    Extends buf buf'' (bytes ++ bytes') := by
  intro hok
  obtain ⟨hok', hdata'⟩ := h' hok
  obtain ⟨hok, hdata⟩ := h hok'
  exact ⟨hok, by rw [hdata', hdata, List.append_assoc]⟩

theorem reserve_ok (h : (reserve grant buf n).1 = true) :
    (reserve grant buf n).2.ok = true ∧ (reserve grant buf n).2.data = buf.data := by
  unfold reserve at h ⊢
  split_ifs at h ⊢ with hok
  all_goals simp_all

theorem reserve_not_ok (h : (reserve grant buf n).1 = false) :
    (reserve grant buf n).2.ok = false := by
  unfold reserve at h ⊢
  split_ifs at h ⊢ with hok
  all_goals simp_all

/-- A buffer that is not in order stays so. -/
theorem ok_of_reserve (h : (reserve grant buf n).1 = true) : buf.ok = true := by
  unfold reserve at h
  split_ifs at h with hok
  all_goals simp_all

/-- **An append that leaves the buffer in order has appended.** -/
theorem extends_append : Extends buf (append grant buf bytes) bytes := by
  intro hok
  rw [append] at hok ⊢
  cases hreserve : reserve grant buf bytes.length with
  | mk granted buf' =>
    cases granted with
    | true =>
      have hgranted : (reserve grant buf bytes.length).1 = true := by rw [hreserve]
      have hdata := (reserve_ok hgranted).2
      rw [hreserve] at hdata
      rw [← hdata]
      exact ⟨ok_of_reserve hgranted, rfl⟩
    | false =>
      -- a buffer that could not grow is out of order for good
      have hrefused : (reserve grant buf bytes.length).1 = false := by rw [hreserve]
      have hbroken := reserve_not_ok hrefused
      rw [hreserve] at hok hbroken
      rw [hbroken] at hok
      cases hok

theorem extends_u8 {value : UInt8} : Extends buf (u8 grant buf value) [value] :=
  extends_append

theorem extends_be32 {value : UInt32} : Extends buf (be32 grant buf value) (be32Bytes value) :=
  extends_append

/-- A loop that appends for every item appends all of it. -/
theorem extends_foldl {σ : Type} {f : ByteBuffer → σ → ByteBuffer} {g : σ → Bytes}
    (h : ∀ buf x, Extends buf (f buf x) (g x)) (items : List σ) :
    Extends buf (items.foldl f buf) (items.flatMap g) := by
  induction items generalizing buf with
  | nil => exact Extends.refl
  | cons x items ih =>
    rw [List.foldl_cons, List.flatMap_cons]
    exact (h buf x).trans ih

/-- There is room for so many bytes more. -/
structure Within (buf : ByteBuffer) (n : ℕ) : Prop where
  ok : buf.ok = true
  room : buf.data.length + n ≤ buf.cap
  small : buf.data.length + n ≤ sizeMax

theorem within_append (h : Within buf (bytes.length + n)) : Within (append grant buf bytes) n := by
  have hok := h.ok
  have hroom := h.room
  have hsmall := h.small
  have hreserve : reserve grant buf bytes.length = (true, buf) := by
    rw [reserve, hok, if_neg (by decide), if_neg (by omega), if_pos (by omega)]
  rw [append, hreserve]
  exact {
    ok := hok
    room := by
      simp only [List.length_append]
      omega
    small := by
      simp only [List.length_append]
      omega }

theorem within_foldl {σ : Type} {f : ByteBuffer → σ → ByteBuffer} {g : σ → Bytes}
    (h : ∀ buf x n, Within buf ((g x).length + n) → Within (f buf x) n) (items : List σ)
    (hwithin : Within buf ((items.flatMap g).length + n)) : Within (items.foldl f buf) n := by
  induction items generalizing buf with
  | nil =>
    rw [List.flatMap_nil, List.length_nil, Nat.zero_add] at hwithin
    exact hwithin
  | cons x items ih =>
    rw [List.flatMap_cons, List.length_append, Nat.add_assoc] at hwithin
    exact ih (h buf x _ hwithin)

/-- The doubled capacity is enough. -/
theorem le_grow {need : ℕ} (hneed : need ≤ sizeMax) : ∀ {fuel next : ℕ},
    2 ^ 64 ≤ next * 2 ^ fuel → need ≤ grow need fuel next := by
  intro fuel
  induction fuel with
  | zero =>
    -- 64 doublings are more than any size
    intro next h
    rw [sizeMax] at hneed
    rw [grow]
    omega
  | succ fuel ih =>
    intro next h
    rw [grow]
    split_ifs
    · exact le_rfl
    · refine ih ?_
      rw [Nat.mul_assoc, ← Nat.pow_succ']
      exact h
    · omega

/-- A buffer that was reserved from nothing has room. -/
theorem within_reserve (hn : n ≤ sizeMax) (h : (reserve grant {} n).1 = true) :
    Within (reserve grant {} n).2 n ∧ (reserve grant {} n).2.data = [] := by
  obtain ⟨hok, hdata⟩ := reserve_ok h
  refine ⟨⟨hok, ?_, ?_⟩, hdata⟩
  · rw [hdata, List.length_nil, Nat.zero_add]
    have hgrown : n ≤ grow n 64 4096 := le_grow hn (by decide)
    unfold reserve at h ⊢
    dsimp only [List.length_nil] at h ⊢
    split_ifs at h ⊢ with hle
    all_goals simp_all
  · rw [hdata, List.length_nil, Nat.zero_add]
    exact hn

end Buffers

/-! ## Fields and checksums -/

theorem be_be32Bytes (value : UInt32) : Png.be (be32Bytes value) = value.toNat := by
  have hlt := value.toNat_lt
  have h24 : (value >>> 24).toUInt8.toNat = value.toNat / 2 ^ 24 % 256 := by
    rw [UInt32.toNat_toUInt8, UInt32.toNat_shiftRight, Nat.shiftRight_eq_div_pow]
    rfl
  have h16 : (value >>> 16).toUInt8.toNat = value.toNat / 2 ^ 16 % 256 := by
    rw [UInt32.toNat_toUInt8, UInt32.toNat_shiftRight, Nat.shiftRight_eq_div_pow]
    rfl
  have h8 : (value >>> 8).toUInt8.toNat = value.toNat / 2 ^ 8 % 256 := by
    rw [UInt32.toNat_toUInt8, UInt32.toNat_shiftRight, Nat.shiftRight_eq_div_pow]
    rfl
  simp only [Png.be, be32Bytes, List.foldl_cons, List.foldl_nil, h24, h16, h8,
    UInt32.toNat_toUInt8]
  omega

theorem be_ofNat {n : ℕ} (h : n < 2 ^ 32) : Png.be (be32Bytes (UInt32.ofNat n)) = n := by
  rw [be_be32Bytes, UInt32.toNat_ofNat_of_lt' h]

/-- Two updates are one CRC-32. -/
theorem crc32Update_eq (type data : Bytes) :
    crc32Update (crc32Update 0 type) data = crc32 (type ++ data) := by
  rw [crc32Update, crc32Update, UInt32.not_not, ← List.foldl_append]
  rfl

theorem foldl_crc32Update (crc : UInt32) (pieces : List Bytes) :
    pieces.foldl crc32Update crc = crc32Update crc pieces.flatten := by
  induction pieces generalizing crc with
  | nil => exact UInt32.not_not.symm
  | cons piece pieces ih =>
    rw [List.foldl_cons, ih, List.flatten_cons, crc32Update, crc32Update, UInt32.not_not,
      ← List.foldl_append]
    rfl

/-- **A message in pieces.** The updates, one after the other from zero on,
come to the remainder of the whole message, inverted. -/
theorem crc32Update_remainder (pieces : List Bytes) :
    polynomialOf 32 (~~~pieces.foldl crc32Update 0).toNat =
      (.X ^ (8 * pieces.flatten.length) * polynomialOf 32 0xffffffff +
        .X ^ 32 * messageOf pieces.flatten) %ₘ generator := by
  rw [foldl_crc32Update]
  exact crc32_spec pieces.flatten

/-- The two sums of `muplar_adler32`. -/
def adlerSums (data : Bytes) : UInt32 × UInt32 :=
  data.foldl
    (fun (s : UInt32 × UInt32) d =>
      let a := (s.1 + d.toUInt32) % 65521
      (a, (s.2 + a) % 65521)) (1, 0)

/-- Reducing at every step reduces the sums. -/
theorem adlerSums_spec (data : Bytes) : (adlerSums data).1.toNat = byteSum data % 65521 ∧
    (adlerSums data).2.toNat = sumOfSums data % 65521 := by
  induction data using List.reverseRecOn with
  | nil =>
    constructor
    · rw [byteSum, List.map_nil, List.sum_nil]
      rfl
    · rw [sumOfSums, List.length_nil, Finset.sum_range_zero]
      rfl
  | append_singleton data d ih =>
    obtain ⟨ha, hb⟩ := ih
    have hd := d.toNat_lt
    have hbase : UInt32.toNat 65521 = 65521 := rfl
    have hfirst : (adlerSums (data ++ [d])).1 =
        ((adlerSums data).1 + d.toUInt32) % 65521 := by
      rw [adlerSums, List.foldl_append, ← adlerSums, List.foldl_cons, List.foldl_nil]
    have hsecond : (adlerSums (data ++ [d])).2 =
        ((adlerSums data).2 + (adlerSums (data ++ [d])).1) % 65521 := by
      rw [adlerSums, List.foldl_append, ← adlerSums, List.foldl_cons, List.foldl_nil]
    have hsum : (adlerSums (data ++ [d])).1.toNat = byteSum (data ++ [d]) % 65521 := by
      rw [hfirst, UInt32.toNat_mod, UInt32.toNat_add, UInt8.toNat_toUInt32, ha, byteSum_concat,
        hbase]
      omega
    refine ⟨hsum, ?_⟩
    rw [hsecond, UInt32.toNat_mod, UInt32.toNat_add, hb, hsum, sumOfSums_concat, hbase]
    omega

theorem toNat_adler32 (data : Bytes) : (adler32 data).toNat = Checksums.adler32 data := by
  obtain ⟨ha, hb⟩ := adlerSums_spec data
  have hlow : byteSum data % 65521 < 2 ^ 16 := by omega
  have hhigh : sumOfSums data % 65521 * 2 ^ 16 < 2 ^ 32 := by omega
  have hshift : UInt32.toNat 16 % 32 = 16 := rfl
  have hdef : adler32 data = (adlerSums data).2 <<< 16 ||| (adlerSums data).1 := rfl
  rw [hdef, UInt32.toNat_or, UInt32.toNat_shiftLeft, ha, hb, hshift, Nat.shiftLeft_eq,
    Nat.mod_eq_of_lt hhigh, ← Nat.shiftLeft_eq, ← Nat.shiftLeft_add_eq_or_of_lt hlow,
    Nat.shiftLeft_eq, Checksums.adler32]

/-! ## Rows -/

def rgbOf (color : UInt32) : Png.Rgb :=
  ⟨(color >>> 16).toUInt8, (color >>> 8).toUInt8, color.toUInt8⟩

/-- What a row of the output shows. -/
def shownRow (b : LiveBitmap) (y : ℕ) : List Png.Rgb :=
  (List.range b.state.width.toNat).map fun x => rgbOf (samplePixel b x y (isUniform b))

/-- What the output shows. -/
def shownRows (b : LiveBitmap) : List (List Png.Rgb) :=
  (List.range b.state.height.toNat).map (shownRow b)

/-- The length of the rows, each with a byte in front. -/
def rawLength (b : LiveBitmap) : ℕ :=
  (b.state.width.toNat * 3 + 1) * b.state.height.toNat

/-- The rows as they are put into the first buffer. -/
def rawBytes (b : LiveBitmap) : Bytes :=
  (shownRows b).flatMap fun row => 0 :: Png.rowBytes row

theorem length_shownRow (b : LiveBitmap) (y : ℕ) :
    (shownRow b y).length = b.state.width.toNat := by
  rw [shownRow, List.length_map, List.length_range]

theorem length_rawBytes (b : LiveBitmap) : (rawBytes b).length = rawLength b := by
  have hrow : ∀ y, (0 :: Png.rowBytes (shownRow b y)).length = b.state.width.toNat * 3 + 1 := by
    intro y
    rw [List.length_cons, Png.length_rowBytes, length_shownRow, Nat.mul_comm]
  rw [rawBytes, shownRows, List.flatMap_map, List.length_flatMap, rawLength]
  simp only [hrow, List.map_const', List.length_range, List.sum_replicate, smul_eq_mul]
  exact Nat.mul_comm _ _

/-- **The first buffer.** Its memory is reserved as a whole, so that no
append fails. -/
theorem rawBuffer_data {grant : ℕ → Bool} {b : LiveBitmap} {raw : ByteBuffer}
    (hsize : rawLength b ≤ sizeMax) (h : rawBuffer grant b = some raw) :
    raw.data = rawBytes b := by
  -- a row is a zero and three bytes a pixel; each loop extends the buffer by what it writes
  -- and stays within the memory that is left
  let pixel := fun (y : ℕ) (raw : ByteBuffer) (x : ℕ) =>
    let color := samplePixel b x y (isUniform b)
    let raw := u8 grant raw (color >>> 16).toUInt8
    let raw := u8 grant raw (color >>> 8).toUInt8
    u8 grant raw color.toUInt8
  let row := fun (raw : ByteBuffer) (y : ℕ) =>
    (List.range b.state.width.toNat).foldl (pixel y) (u8 grant raw 0)
  let pixelBytes := fun y x =>
    let c := rgbOf (samplePixel b x y (isUniform b))
    [c.red, c.green, c.blue]
  have hrow : ∀ y, 0 :: Png.rowBytes (shownRow b y) =
      [0] ++ (List.range b.state.width.toNat).flatMap (pixelBytes y) := by
    intro y
    rw [Png.rowBytes, shownRow, List.flatMap_map]
    rfl
  have hpixelExtends : ∀ y buf x, Extends buf (pixel y buf x) (pixelBytes y x) :=
    fun y buf x => (extends_u8.trans extends_u8).trans extends_u8
  have hpixelWithin : ∀ y buf x n, Within buf ((pixelBytes y x).length + n) →
      Within (pixel y buf x) n := by
    intro y buf x n hwithin
    have hthree : (pixelBytes y x).length + n = 1 + (1 + (1 + n)) := by
      show 3 + n = _
      omega
    rw [hthree] at hwithin
    exact within_append (within_append (within_append hwithin))
  have hrowExtends : ∀ buf y, Extends buf (row buf y) (0 :: Png.rowBytes (shownRow b y)) := by
    intro buf y
    rw [hrow]
    exact extends_u8.trans (extends_foldl (hpixelExtends y) _)
  have hrowWithin : ∀ buf y n, Within buf ((0 :: Png.rowBytes (shownRow b y)).length + n) →
      Within (row buf y) n := by
    intro buf y n hwithin
    rw [hrow, List.length_append, Nat.add_assoc] at hwithin
    exact within_foldl (hpixelWithin y) _ (within_append hwithin)
  have hbytes : (List.range b.state.height.toNat).flatMap
      (fun y => 0 :: Png.rowBytes (shownRow b y)) = rawBytes b := by
    rw [rawBytes, shownRows, List.flatMap_map]
  cases hreserve : reserve grant {} (rawLength b) with
  | mk granted reserved =>
    rw [rawBuffer, ← rawLength, hreserve] at h
    cases granted with
    | false => cases h
    | true =>
      have hgranted : (reserve grant {} (rawLength b)).1 = true := by rw [hreserve]
      obtain ⟨hwithin, hempty⟩ := within_reserve hsize hgranted
      rw [hreserve] at hwithin hempty
      rw [← length_rawBytes, ← Nat.add_zero (rawBytes b).length, ← hbytes] at hwithin
      obtain rfl := Option.some.inj h
      have hok := (within_foldl hrowWithin _ hwithin).ok
      have hdata := (extends_foldl hrowExtends _ hok).2
      rw [hbytes, hempty, List.nil_append] at hdata
      exact hdata

/-- The rows are read back. -/
theorem decodeRows_rawBytes (b : LiveBitmap) :
    Png.decodeRows (3 * b.state.width.toNat) b.state.height.toNat (rawBytes b) =
      some (shownRows b).flatten := by
  have hlength : (shownRows b).length = b.state.height.toNat := by
    rw [shownRows, List.length_map, List.length_range]
  have hrows : ∀ row ∈ shownRows b, row.length = b.state.width.toNat := by
    intro row hrow
    obtain ⟨y, -, rfl⟩ := List.mem_map.mp hrow
    exact length_shownRow b y
  rw [← hlength]
  exact Png.decodeRows_flatMap _ hrows

/-! ## Blocks -/

/-- The header of a block. -/
def blockHeader (final : UInt8) (block : UInt16) : Bytes :=
  [final, block.toUInt8, (block >>> 8).toUInt8, (~~~block).toUInt8, (~~~block >>> 8).toUInt8]

theorem toNat_halves (n : UInt16) : n.toUInt8.toNat + 256 * (n >>> 8).toUInt8.toNat = n.toNat := by
  have hlt := n.toNat_lt
  have hshift : UInt16.toNat 8 % 16 = 8 := rfl
  rw [UInt16.toNat_toUInt8, UInt16.toNat_toUInt8, UInt16.toNat_shiftRight, hshift,
    Nat.shiftRight_eq_div_pow]
  omega

/-- `LEN` and its complement. -/
theorem toNat_not_halves (n : UInt16) :
    n.toNat + ((~~~n).toUInt8.toNat + 256 * (~~~n >>> 8).toUInt8.toNat) = 65535 := by
  have hlt := n.toNat_lt
  rw [toNat_halves, UInt16.toNat_not, UInt16.size]
  omega

/-- How many blocks there are. -/
def blockCount (n : ℕ) : ℕ :=
  (n + 65534) / 65535

/-- One turn of the loop. -/
theorem extends_block {grant : ℕ → Bool} {buf : ByteBuffer} (final : UInt8) (block : UInt16)
    (bytes : Bytes) :
    Extends buf (append grant (u8 grant (u8 grant (u8 grant (u8 grant (u8 grant buf final)
      block.toUInt8) (block >>> 8).toUInt8) (~~~block).toUInt8) (~~~block >>> 8).toUInt8) bytes)
      (blockHeader final block ++ bytes) :=
  ((((extends_u8.trans extends_u8).trans extends_u8).trans extends_u8).trans extends_u8).trans
    extends_append

theorem storedBlocks_final {n : ℕ} {block : UInt16} {bytes rest : Bytes}
    (h : block.toNat = bytes.length) :
    Png.storedBlocks (n + 1) (blockHeader 1 block ++ bytes ++ rest) = some (bytes, rest) := by
  have hnot := toNat_not_halves block
  rw [h] at hnot
  rw [List.append_assoc]
  exact Png.storedBlocks_final ((toNat_halves block).trans h) hnot

theorem storedBlocks_more {n : ℕ} {block : UInt16} {bytes rest : Bytes}
    (h : block.toNat = bytes.length) :
    Png.storedBlocks (n + 1) (blockHeader 0 block ++ bytes ++ rest) =
      (Png.storedBlocks n rest).map fun p => (bytes ++ p.1, p.2) := by
  have hnot := toNat_not_halves block
  rw [h] at hnot
  rw [List.append_assoc]
  exact Png.storedBlocks_more ((toNat_halves block).trans h) hnot

/-- **The loop writes stored blocks.** They hold the rows, the last of them
is the only final one, and each takes five bytes more. -/
theorem storeBlocks_spec {grant : ℕ → Bool} : ∀ {fuel : ℕ} {data : Bytes},
    data.length ≤ fuel → 0 < data.length → ∃ blocks : Bytes,
      (∀ idat, Extends idat (storeBlocks grant fuel data idat) blocks) ∧
      blocks.length = data.length + 5 * blockCount data.length ∧
      ∀ {fuel' : ℕ} {rest : Bytes}, blocks.length ≤ fuel' →
        Png.storedBlocks fuel' (blocks ++ rest) = some (data, rest) := by
  intro fuel
  induction fuel with
  | zero =>
    intro data hfuel hpos
    omega
  | succ fuel ih =>
    intro data hfuel hpos
    simp only [storeBlocks, if_neg (show ¬data.length = 0 by omega)]
    by_cases hle : data.length ≤ 65535
    · -- the rest fits, so this block is final and the loop ends behind it
      have hblock : (UInt16.ofNat data.length).toNat = data.length :=
        UInt16.toNat_ofNat_of_lt' (by rw [UInt16.size]; omega)
      have hend : ∀ buf, storeBlocks grant fuel [] buf = buf := by
        intro buf
        cases fuel <;> rfl
      have hone : blockCount data.length = 1 := by
        rw [blockCount]
        omega
      have hlength : (blockHeader 1 (UInt16.ofNat data.length) ++ data).length =
          5 + data.length := List.length_append
      rw [if_pos hle, if_neg (by omega), hblock, List.take_of_length_le le_rfl,
        List.drop_of_length_le le_rfl]
      refine ⟨blockHeader 1 (UInt16.ofNat data.length) ++ data, ?_, ?_, ?_⟩
      · intro idat
        rw [hend]
        exact extends_block _ _ _
      · rw [hlength, hone]
        omega
      · intro fuel' rest hfuel'
        rw [hlength] at hfuel'
        obtain ⟨n, rfl⟩ : ∃ n, fuel' = n + 1 := ⟨fuel' - 1, by omega⟩
        exact storedBlocks_final hblock
    · -- a full block, and the rest by induction
      have htake : UInt16.toNat 65535 = (data.take 65535).length := by
        rw [List.length_take]
        show 65535 = _
        omega
      have hdrop : (data.drop 65535).length = data.length - 65535 := List.length_drop
      have hcount : blockCount data.length = blockCount (data.length - 65535) + 1 := by
        rw [blockCount, blockCount]
        omega
      obtain ⟨blocks, hextends, hlength, hread⟩ :=
        ih (show (data.drop 65535).length ≤ fuel by omega) (by omega)
      have hall : (blockHeader 0 65535 ++ data.take 65535 ++ blocks).length =
          5 + 65535 + blocks.length := by
        rw [List.length_append, List.length_append, ← htake]
        rfl
      rw [if_neg hle, if_pos (by omega)]
      refine ⟨blockHeader 0 65535 ++ data.take 65535 ++ blocks, ?_, ?_, ?_⟩
      · intro idat
        exact (extends_block _ _ _).trans (hextends _)
      · rw [hall, hlength, hdrop, hcount]
        omega
      · intro fuel' rest hfuel'
        rw [hall] at hfuel'
        obtain ⟨n, rfl⟩ : ∃ n, fuel' = n + 1 := ⟨fuel' - 1, by omega⟩
        rw [List.append_assoc, storedBlocks_more htake, hread (by omega), Option.map_some,
          List.take_append_drop]

/-! ## The image data -/

theorem length_be32Bytes (value : UInt32) : (be32Bytes value).length = 4 := rfl

/-- How long the image data gets. -/
def imageDataLength (b : LiveBitmap) : ℕ :=
  2 + (rawLength b + 5 * blockCount (rawLength b)) + 4

theorem rawLength_pos (b : LiveBitmap) : 0 < rawLength b := by
  have hheight := b.height_pos
  exact Nat.mul_pos (Nat.succ_pos _) (by omega)

/-- **The second buffer**, if it is in order, is a zlib stream of the
rows. -/
theorem idatBuffer_spec {grant : ℕ → Bool} {b : LiveBitmap}
    (hok : (idatBuffer grant (rawBytes b)).ok = true) :
    (idatBuffer grant (rawBytes b)).data.length = imageDataLength b ∧
      Png.zlibDecode (idatBuffer grant (rawBytes b)).data = some (rawBytes b) := by
  have hpos : 0 < (rawBytes b).length := by
    rw [length_rawBytes]
    exact rawLength_pos b
  obtain ⟨blocks, hextends, hlength, hread⟩ :=
    @storeBlocks_spec grant _ _ (le_refl (rawBytes b).length) hpos
  have hall : Extends {} (idatBuffer grant (rawBytes b))
      ([0x78] ++ [0x01] ++ blocks ++ be32Bytes (adler32 (rawBytes b))) :=
    ((extends_u8.trans extends_u8).trans (hextends _)).trans extends_be32
  have hdata : (idatBuffer grant (rawBytes b)).data =
      0x78 :: 0x01 :: (blocks ++ be32Bytes (adler32 (rawBytes b))) := (hall hok).2
  rw [hdata]
  constructor
  · rw [List.length_cons, List.length_cons, List.length_append, hlength, length_be32Bytes,
      length_rawBytes, imageDataLength]
    omega
  · rw [Png.zlibDecode, if_pos (by decide), hread (by rw [List.length_append]; omega)]
    dsimp only
    rw [if_pos ⟨length_be32Bytes _, by rw [be_be32Bytes, toNat_adler32]⟩]

/-! ## Chunks -/

def chunkBytes (type data : Bytes) : Bytes :=
  be32Bytes (UInt32.ofNat data.length) ++ (type ++ (data ++ be32Bytes (crc32 (type ++ data))))

theorem extends_pngChunk {grant : ℕ → Bool} {buf : ByteBuffer} (type data : Bytes) :
    Extends buf (pngChunk grant buf type data) (chunkBytes type data) := by
  have hcrc : crc32Update 0 type = crc32 (type ++ []) := by
    rw [List.append_nil, crc32Update]
    rfl
  by_cases hempty : data.length = 0
  · obtain rfl := List.length_eq_zero_iff.mp hempty
    simp only [pngChunk, hempty, if_neg (not_not_intro rfl), hcrc, chunkBytes, List.nil_append]
    rw [← List.append_assoc]
    exact (extends_be32.trans extends_append).trans extends_be32
  · simp only [pngChunk, if_pos hempty, crc32Update_eq, chunkBytes, ← List.append_assoc]
    exact ((extends_be32.trans extends_append).trans extends_append).trans extends_be32

theorem chunk_chunkBytes {type data : Bytes} (rest : Bytes) (htype : type.length = 4)
    (hdata : data.length < 2 ^ 31) :
    Png.chunk (chunkBytes type data ++ rest) = some (type, data, rest) := by
  have hread := Png.chunk_append rest (length_be32Bytes _) htype (length_be32Bytes _)
    (be_ofNat (hdata.trans (by decide))) hdata (be_be32Bytes (crc32 (type ++ data)))
  simp only [chunkBytes, List.append_assoc]
  exact hread

/-- **The third buffer**, if it is in order. -/
theorem pngBuffer_data {grant : ℕ → Bool} {b : LiveBitmap} {idat : Bytes}
    (hok : (pngBuffer grant b idat).ok = true) : (pngBuffer grant b idat).data =
      Png.signature ++ (chunkBytes (ascii "IHDR") (ihdr b) ++ (chunkBytes (ascii "IDAT") idat ++
        (chunkBytes (ascii "IEND") [] ++ []))) := by
  have hall : Extends {} (pngBuffer grant b idat) (Png.signature ++
      chunkBytes (ascii "IHDR") (ihdr b) ++ chunkBytes (ascii "IDAT") idat ++
        chunkBytes (ascii "IEND") []) :=
    ((extends_append.trans (extends_pngChunk _ _)).trans (extends_pngChunk _ _)).trans
      (extends_pngChunk _ _)
  have hdata := (hall hok).2
  rw [List.append_nil, ← List.append_assoc, ← List.append_assoc, hdata]
  rfl

/-! ## What the output shows -/

/-- **The output is read back**, if the image data fits in a chunk and no
buffer failed. -/
theorem decode_shownRows {grants : Grants} {b : LiveBitmap} (hsize : imageDataLength b < 2 ^ 31)
    (hsuccess : (bitmapToPng grants b).success = true)
    (hidat : (bitmapToPng grants b).idat.ok = true) :
    Png.decode (bitmapToPng grants b).png.data =
      some ⟨b.state.width.toNat, b.state.height.toNat, (shownRows b).flatten⟩ := by
  have hwidth := b.width_pos
  have hwidth' := b.width_lt
  have hheight := b.height_pos
  have hheight' := b.height_lt
  have hraw : rawLength b ≤ sizeMax := by
    rw [imageDataLength] at hsize
    rw [sizeMax]
    omega
  cases hbuffer : rawBuffer grants.raw b with
  | none =>
    rw [bitmapToPng, hbuffer] at hsuccess
    cases hsuccess
  | some raw =>
    have hdata := rawBuffer_data hraw hbuffer
    rw [bitmapToPng, hbuffer] at hsuccess hidat ⊢
    dsimp only at hsuccess hidat ⊢
    rw [hdata] at hsuccess hidat ⊢
    obtain ⟨hlength, hzlib⟩ := idatBuffer_spec hidat
    -- the header's numbers are the size, and the stream holds the rows
    have himage : Png.decodeImage (ihdr b) (idatBuffer grants.idat (rawBytes b)).data =
        some ⟨b.state.width.toNat, b.state.height.toNat, (shownRows b).flatten⟩ := by
      have htake : Png.be ((ihdr b).take 4) = b.state.width.toNat := be_ofNat (by omega)
      have htake' : Png.be (((ihdr b).drop 4).take 4) = b.state.height.toNat :=
        be_ofNat (by omega)
      simp only [Png.decodeImage, htake, htake']
      rw [if_pos ⟨by omega, by omega, rfl⟩, hzlib]
      dsimp only
      rw [decodeRows_rawBytes]
      rfl
    have hsignature : ∀ rest, (Png.signature ++ rest).take 8 = Png.signature := fun rest => rfl
    have hrest : ∀ rest, (Png.signature ++ rest).drop 8 = rest := fun rest => rfl
    have hihdr : (ihdr b).length = 13 := rfl
    -- three chunks, one after the other
    rw [pngBuffer_data hsuccess, Png.decode, hsignature, if_pos rfl, hrest,
      chunk_chunkBytes _ rfl (by rw [hihdr]; decide)]
    dsimp only
    rw [chunk_chunkBytes _ rfl (hlength ▸ hsize)]
    dsimp only
    rw [chunk_chunkBytes _ rfl (by decide)]
    dsimp only
    rw [if_pos ⟨rfl, rfl, rfl, rfl, rfl⟩, himage]

/-- The pattern that is shown for a bitmap of one colour. -/
def pattern (b : LiveBitmap) : List Png.Rgb :=
  (List.range b.state.height.toNat).flatMap fun y =>
    (List.range b.state.width.toNat).map fun x => rgbOf (samplePixel b x y true)

theorem flatMap_range (height width : ℕ) {α : Type} (f : ℕ → α) :
    ((List.range height).flatMap fun y => (List.range width).map fun x => f (y * width + x)) =
      (List.range (height * width)).map f := by
  induction height with
  | zero => rw [Nat.zero_mul, List.range_zero, List.flatMap_nil, List.map_nil]
  | succ height ih =>
    rw [List.range_succ, List.flatMap_append, ih, List.flatMap_singleton, Nat.succ_mul,
      List.range_add, List.map_append, List.map_map]
    rfl

/-- The pixels of a bitmap are what is shown, but for one colour. -/
theorem flatten_shownRows (b : LiveBitmap) : (shownRows b).flatten =
    if isUniform b then pattern b else b.state.pixels.map rgbOf := by
  have hrows : (shownRows b).flatten = (List.range b.state.height.toNat).flatMap fun y =>
      (List.range b.state.width.toNat).map fun x => rgbOf (samplePixel b x y (isUniform b)) := by
    rw [shownRows, ← List.flatMap_def]
    rfl
  rw [hrows]
  cases isUniform b with
  | true => rfl
  | false =>
    have hpixels : (List.range b.state.pixels.length).map b.pixel = b.state.pixels := by
      refine List.ext_getElem (by rw [List.length_map, List.length_range]) fun i hi hi' => ?_
      rw [List.getElem_map, List.getElem_range, LiveBitmap.pixel, List.getD_eq_getElem?_getD,
        List.getElem?_eq_getElem hi', Option.getD_some]
    rw [if_neg Bool.false_ne_true]
    have hown : ∀ x y, samplePixel b x y false = b.pixel (y * b.state.width.toNat + x) :=
      fun x y => rfl
    simp only [hown]
    rw [flatMap_range b.state.height.toNat b.state.width.toNat fun i => rgbOf (b.pixel i),
      ← b.length_pixels]
    conv_rhs => rw [← hpixels]
    rw [List.map_map]
    rfl

/-- **PNG output.** If the output is reported and the buffer of the image
data did not fail, the output is a PNG of the bitmap; a bitmap of one
colour is shown as a pattern. -/
theorem output_decodes {grants : Grants} {b : LiveBitmap} (hsize : imageDataLength b < 2 ^ 31)
    (hsuccess : (bitmapToPng grants b).success = true)
    (hidat : (bitmapToPng grants b).idat.ok = true) :
    Png.decode (bitmapToPng grants b).png.data =
      some ⟨b.state.width.toNat, b.state.height.toNat,
        if isUniform b then pattern b else b.state.pixels.map rgbOf⟩ := by
  rw [decode_shownRows hsize hsuccess hidat, flatten_shownRows]

/-- The world grants all memory. -/
def allGranted : Grants := ⟨fun _ => true, fun _ => true, fun _ => true⟩

theorem one_lt_pow : (1 : ℤ) < 2 ^ 31 := by decide

theorem two_lt_pow : (2 : ℤ) < 2 ^ 31 := by decide

/-- Two pixels of two colours, as a bitmap is created. -/
def twoPixels : LiveBitmap :=
  .created (some fun i => if i = 0 then 0xff112233 else 0xff445566) 0 2 2 1 5 (fun _ => 0)
    two_lt_pow one_lt_pow

/-- One pixel. -/
def onePixel : LiveBitmap :=
  .created (some fun _ => 0xff112233) 0 1 1 1 5 (fun _ => 0) one_lt_pow one_lt_pow

theorem two_pixels_decode :
    Png.decode (bitmapToPng allGranted twoPixels).png.data =
      some ⟨2, 1, [⟨0x11, 0x22, 0x33⟩, ⟨0x44, 0x55, 0x66⟩]⟩ :=
  output_decodes (by decide) (by decide) (by decide)

/-- One pixel is a bitmap of one colour, and it is not shown. -/
theorem one_pixel_not_shown :
    imageDataLength onePixel < 2 ^ 31 ∧ (bitmapToPng allGranted onePixel).success = true ∧
      (bitmapToPng allGranted onePixel).idat.ok = true ∧
      Png.decode (bitmapToPng allGranted onePixel).png.data =
        some ⟨1, 1, [⟨0x26, 0x32, 0x38⟩]⟩ ∧
      onePixel.state.pixels.map rgbOf = [⟨0x11, 0x22, 0x33⟩] := by
  refine ⟨by decide, by decide, by decide, ?_, by decide⟩
  rw [decode_shownRows (by decide) (by decide) (by decide)]
  decide

end PngOutput

end Shim

end Muplar
