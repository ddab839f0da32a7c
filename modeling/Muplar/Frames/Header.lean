import Mathlib.Tactic.Common
import Muplar.Common.Bytes
/-!
# Frames — headers and readers

A frame crosses a socket as a header of 24 bytes and the pixels behind it.
The device shell reads frames from the socket; the host window reads one
from a file the guest has written and relays it. Both multiply the
dimensions in 64 bits and compare the product with the length the header
names, so a product that wraps can be accepted by either
(`accepted_honest_iff`, `relayed_honest_iff`).
-/

namespace Muplar

namespace Frames

/-! ## Headers -/

/-- `MHR1`. -/
def frameMagic : UInt32 := 0x4d485231

/-- The most bytes a frame may have. -/
def maxFrameBytes : ℕ := 64 * 1024 * 1024

/-- `AndroidDeviceFrameHeader`, `HostFrameHeader` and `muplar_frame_header`,
which have the same fields and the same layout. -/
structure FrameHeader where
  magic : UInt32 := frameMagic
  width : UInt32 := 0
  height : UInt32 := 0
  stridePixels : UInt32 := 0
  bytes : UInt64 := 0
  deriving DecidableEq

namespace FrameHeader

/-- `sizeof(header)`. -/
def size : ℕ := 24

/-- The fields one after the other. -/
def fields (h : FrameHeader) : List Bytes :=
  [encodeLe 4 h.magic.toNat, encodeLe 4 h.width.toNat, encodeLe 4 h.height.toNat,
    encodeLe 4 h.stridePixels.toNat, encodeLe 8 h.bytes.toNat]

/-- The header as it stands in memory. -/
def encode (h : FrameHeader) : Bytes :=
  h.fields.flatten

/-- A header read from memory. -/
def decode (data : Bytes) : FrameHeader where
  magic := UInt32.ofNat (le (slice data 0 4))
  width := UInt32.ofNat (le (slice data 4 4))
  height := UInt32.ofNat (le (slice data 8 4))
  stridePixels := UInt32.ofNat (le (slice data 12 4))
  bytes := UInt64.ofNat (le (slice data 16 8))

@[simp] theorem length_encode (h : FrameHeader) : h.encode.length = size := by
  simp [encode, fields, size]

theorem slice_encode (h : FrameHeader) {i off len : ℕ} {field : Bytes}
    (hfield : h.fields[i]? = some field) (hoff : off = (h.fields.take i).flatten.length)
    (hlen : len = field.length) : slice h.encode off len = field := by
  have hslice : slice ([] ++ (h.fields.flatten ++ [])) off len = field :=
    slice_record hfield (hoff.trans (Nat.zero_add _).symm) rfl hlen
  rwa [List.nil_append, List.append_nil] at hslice

/-- A header is read back. -/
@[simp] theorem decode_encode (h : FrameHeader) : decode h.encode = h := by
  have hmagic : slice h.encode 0 4 = encodeLe 4 h.magic.toNat :=
    h.slice_encode (i := 0) rfl (by simp [fields]) (by simp)
  have hwidth : slice h.encode 4 4 = encodeLe 4 h.width.toNat :=
    h.slice_encode (i := 1) rfl (by simp [fields]) (by simp)
  have hheight : slice h.encode 8 4 = encodeLe 4 h.height.toNat :=
    h.slice_encode (i := 2) rfl (by simp [fields]) (by simp)
  have hstride : slice h.encode 12 4 = encodeLe 4 h.stridePixels.toNat :=
    h.slice_encode (i := 3) rfl (by simp [fields]) (by simp)
  have hbytes : slice h.encode 16 8 = encodeLe 8 h.bytes.toNat :=
    h.slice_encode (i := 4) rfl (by simp [fields]) (by simp)
  rw [decode, hmagic, hwidth, hheight, hstride, hbytes]
  rw [le_encodeLe h.magic.toNat_lt, le_encodeLe h.width.toNat_lt, le_encodeLe h.height.toNat_lt,
    le_encodeLe h.stridePixels.toNat_lt, le_encodeLe h.bytes.toNat_lt]
  simp

/-! ## What the readers accept -/

/-- `(uint64_t)width * height * 4`. -/
def product (h : FrameHeader) : UInt64 :=
  h.width.toUInt64 * h.height.toUInt64 * 4

/-- The test of the device shell. -/
def accepted (h : FrameHeader) : Bool :=
  !(h.magic ≠ frameMagic || h.width = 0 || h.height = 0 || h.bytes = 0 ||
    h.stridePixels ≠ h.width || h.bytes ≠ h.product || h.bytes > UInt64.ofNat maxFrameBytes)

/-- The test of `poll_software_frame`, on a file of `fileSize` bytes. -/
def relayed (h : FrameHeader) (fileSize : ℕ) : Bool :=
  h.magic = frameMagic && h.width > 0 && h.height > 0 && h.stridePixels ≥ h.width &&
    h.bytes = h.product && h.bytes ≤ UInt64.ofNat maxFrameBytes &&
      fileSize ≥ size + h.bytes.toNat

/-- The product as an integer. -/
def area (h : FrameHeader) : ℕ :=
  h.width.toNat * h.height.toNat

/-- **The length is what the dimensions come to**, without wrapping, and is
between one byte and 64 MiB. -/
structure Honest (h : FrameHeader) : Prop where
  product : h.area * 4 = h.bytes.toNat
  pos : 0 < h.bytes.toNat
  le : h.bytes.toNat ≤ maxFrameBytes

theorem toNat_product (h : FrameHeader) : h.product.toNat = h.area * 4 % 2 ^ 64 := by
  have hwidth : h.width.toUInt64.toNat = h.width.toNat := UInt32.toNat_toUInt64 _
  have hheight : h.height.toUInt64.toNat = h.height.toNat := UInt32.toNat_toUInt64 _
  rw [FrameHeader.product, UInt64.toNat_mul, UInt64.toNat_mul, hwidth, hheight, area]
  exact Nat.mod_mul_mod _ _ _

theorem area_pos {h : FrameHeader} (hwidth : 0 < h.width.toNat) (hheight : 0 < h.height.toNat) :
    0 < h.area :=
  Nat.mul_pos hwidth hheight

theorem honest_iff {h : FrameHeader} (hpos : 0 < h.area) (hbytes : h.bytes = h.product)
    (hle : h.bytes.toNat ≤ maxFrameBytes) : h.Honest ↔ h.area < 2 ^ 62 := by
  have hnat : h.bytes.toNat = h.area * 4 % 2 ^ 64 := by rw [hbytes, toNat_product]
  constructor
  · intro hh
    have hproduct := hh.product
    have hlt := h.bytes.toNat_lt
    omega
  · intro hlt
    exact ⟨by omega, by omega, hle⟩

theorem accepted_iff {h : FrameHeader} : h.accepted = true ↔
    h.magic = frameMagic ∧ 0 < h.width.toNat ∧ 0 < h.height.toNat ∧ 0 < h.bytes.toNat ∧
      h.stridePixels = h.width ∧ h.bytes = h.product ∧ h.bytes.toNat ≤ maxFrameBytes := by
  have hmax : (UInt64.ofNat maxFrameBytes).toNat = maxFrameBytes := rfl
  have hwidth : h.width = 0 ↔ h.width.toNat = 0 := by rw [← UInt32.toNat_inj]; rfl
  have hheight : h.height = 0 ↔ h.height.toNat = 0 := by rw [← UInt32.toNat_inj]; rfl
  have hbytes : h.bytes = 0 ↔ h.bytes.toNat = 0 := by rw [← UInt64.toNat_inj]; rfl
  simp only [accepted, ne_eq, Bool.not_eq_true', Bool.or_eq_false_iff, decide_eq_false_iff_not,
    not_not, gt_iff_lt, UInt64.lt_iff_toNat_lt, hmax, hwidth, hheight, hbytes, and_assoc]
  constructor
  · rintro ⟨hm, hw, hh, hb, hs, hp, hl⟩
    exact ⟨hm, by omega, by omega, by omega, hs, hp, by omega⟩
  · rintro ⟨hm, hw, hh, hb, hs, hp, hl⟩
    exact ⟨hm, by omega, by omega, by omega, hs, hp, by omega⟩

theorem relayed_iff {h : FrameHeader} {fileSize : ℕ} : h.relayed fileSize = true ↔
    h.magic = frameMagic ∧ 0 < h.width.toNat ∧ 0 < h.height.toNat ∧
      h.width.toNat ≤ h.stridePixels.toNat ∧ h.bytes = h.product ∧
      h.bytes.toNat ≤ maxFrameBytes ∧ size + h.bytes.toNat ≤ fileSize := by
  have hmax : (UInt64.ofNat maxFrameBytes).toNat = maxFrameBytes := rfl
  have hzero : (0 : UInt32).toNat = 0 := rfl
  simp only [relayed, Bool.and_eq_true, decide_eq_true_eq, gt_iff_lt, ge_iff_le,
    UInt32.lt_iff_toNat_lt, UInt32.le_iff_toNat_le, UInt64.le_iff_toNat_le, hmax, hzero, and_assoc]

/-- **What the shell accepts** is honest exactly where the product does not
wrap. -/
theorem accepted_honest_iff {h : FrameHeader} (ha : h.accepted = true) :
    h.Honest ↔ h.area < 2 ^ 62 := by
  obtain ⟨-, hwidth, hheight, -, -, hbytes, hle⟩ := accepted_iff.mp ha
  exact honest_iff (area_pos hwidth hheight) hbytes hle

/-- **What the host window accepts**, likewise. -/
theorem relayed_honest_iff {h : FrameHeader} {fileSize : ℕ} (hr : h.relayed fileSize = true) :
    h.Honest ↔ h.area < 2 ^ 62 := by
  obtain ⟨-, hwidth, hheight, -, hbytes, hle, -⟩ := relayed_iff.mp hr
  exact honest_iff (area_pos hwidth hheight) hbytes hle

/-- What is relayed is accepted and honest exactly where its rows are not
padded and its product does not wrap. -/
theorem relayed_good_iff {h : FrameHeader} {fileSize : ℕ} (hr : h.relayed fileSize = true) :
    h.accepted = true ∧ h.Honest ↔ h.stridePixels = h.width ∧ h.area < 2 ^ 62 := by
  obtain ⟨hmagic, hwidth, hheight, -, hbytes, hle, -⟩ := relayed_iff.mp hr
  rw [relayed_honest_iff hr]
  constructor
  · rintro ⟨ha, hlt⟩
    exact ⟨(accepted_iff.mp ha).2.2.2.2.1, hlt⟩
  · rintro ⟨hstride, hlt⟩
    have hpos := ((relayed_honest_iff hr).mpr hlt).pos
    exact ⟨accepted_iff.mpr ⟨hmagic, hwidth, hheight, hpos, hstride, hbytes, hle⟩, hlt⟩

end FrameHeader

end Frames

end Muplar
