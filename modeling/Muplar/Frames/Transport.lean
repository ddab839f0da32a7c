import Muplar.Common.Run
import Muplar.Frames.Header
/-!
# Frames — transport

Four functions send frames: `present_rgba` and `poll_software_frame` of the
host window, and `muplar_write_bitmap_frame` and `muplar_write_raw_frame`
of the guest's graphics library. Three of them make the header from the
pixels they send. `poll_software_frame` sends on a header that the guest
has written, after a test that is not the reader's: rows may be padded,
and a product that wraps to zero will do.

A stream of frames arrives as it was sent exactly where no header that is
relayed pads its rows or wraps (`frames_arrive_iff`).
-/

namespace Muplar

namespace Frames

open Machine

/-! ## Frames -/

/-- A frame: the header and what is sent behind it. -/
structure Frame where
  header : FrameHeader
  pixels : Bytes
  deriving DecidableEq

namespace Frame

/-- The frame on the socket. -/
def encode (f : Frame) : Bytes :=
  f.header.encode ++ f.pixels

/-- As many bytes as the header names. -/
def Fit (f : Frame) : Prop :=
  f.pixels.length = f.header.bytes.toNat

end Frame

/-! ## Reading -/

/-- `AndroidDeviceReadAll` and `read_all_fd`: what is read, and what is left
of the stream. -/
def readAll (stream : Bytes) (size : ℕ) : Option (Bytes × Bytes) :=
  if stream.length < size then none else some (stream.take size, stream.drop size)

/-- What has come of a stream: the headers that were accepted, the frames
that were shown, and whether the stream ended in a header that was
rejected. -/
structure Reading where
  headers : List FrameHeader := []
  frames : List Frame := []
  rejected : Bool := false

/-- The loop of the device shell's frame server, on one client. -/
def readFrames : ℕ → Bytes → Reading
  | 0, _ => {}
  | n + 1, stream =>
    match readAll stream FrameHeader.size with
    | none => {}
    | some (head, rest) =>
      let header := FrameHeader.decode head
      if header.accepted then
        match readAll rest header.bytes.toNat with
        | none => { headers := [header] }
        | some (pixels, rest) =>
          let reading := readFrames n rest
          { reading with
            headers := header :: reading.headers
            frames := ⟨header, pixels⟩ :: reading.frames }
      else { rejected := true }

/-- The loop until the stream ends. -/
def receive (stream : Bytes) : Reading :=
  readFrames (stream.length + 1) stream

/-! ## Sending -/

/-- A color of four components, blended over the background unless it
covers it. -/
def rgba (argb : UInt32) : Bytes :=
  let a := (argb >>> 24).toUInt8
  let channel (shift : UInt32) : UInt8 :=
    let c := (argb >>> shift).toUInt8
    if a < 255 then
      ((c.toUInt32 * a.toUInt32 + 238 * (255 - a.toUInt32)) / 255).toUInt8
    else c
  [channel 16, channel 8, channel 0, 255]

/-- `(size_t)` of an `int`. -/
def toSize (x : Int32) : UInt64 :=
  x.toInt64.toUInt64

/-- The header that the senders make. -/
def madeHeader (width height : Int32) : FrameHeader where
  width := width.toUInt32
  height := height.toUInt32
  stridePixels := width.toUInt32
  bytes := toSize width * toSize height * 4

/-- The frame of `muplar_write_bitmap_frame` and `muplar_write_raw_frame`. -/
def shimFrame (width height : Int32) (pixels : ℕ → UInt32) : Frame where
  header := madeHeader width height
  pixels := (List.range (toSize width * toSize height).toNat).flatMap fun i => rgba (pixels i)

/-- `muplar_bitmap_state`, whose dimensions are positive from
`muplar_alloc_bitmap` on. -/
structure Bitmap where
  width : Int32
  height : Int32
  pixels : ℕ → UInt32
  width_pos : 0 < width.toInt
  height_pos : 0 < height.toInt

/-- `muplar_write_raw_frame`. -/
def rawFrame (width height : Int32) (pixels : ℕ → UInt32) : Option Frame :=
  if width ≤ 0 ∨ height ≤ 0 then none else some (shimFrame width height pixels)

/-- A row of `present_rgba`; the last row of the pixels comes first. -/
def row (width height stride : ℕ) (pixels : ℕ → UInt8) (y : ℕ) : Bytes :=
  (List.range (width * 4)).map fun i => pixels ((height - 1 - y) * (stride * 4) + i)

/-- `present_rgba`. -/
def presentRgba (width height stride : Int32) (pixels : ℕ → UInt8) : Option Frame :=
  if width ≤ 0 ∨ height ≤ 0 ∨ stride < width then none
  else some
    { header := madeHeader width height
      pixels := (List.range height.toNatClampNeg).flatMap
        (row width.toNatClampNeg height.toNatClampNeg stride.toNatClampNeg pixels) }

/-- What `stat` says of the frame file. -/
structure FileStat where
  size : ℕ := 0
  mtimeSec : ℤ := 0
  mtimeNsec : ℤ := 0
  deriving DecidableEq

/-- `poll_software_frame`: the file is read if it is not the one seen last.
What is read may be another file than the one asked about. -/
def pollSoftwareFrame (seen stat : FileStat) (content : Bytes) : Option Frame :=
  if stat = seen then none
  else
    match readAll content FrameHeader.size with
    | none => none
    | some (head, rest) =>
      let header := FrameHeader.decode head
      if header.relayed stat.size then
        (readAll rest header.bytes.toNat).map fun read => ⟨header, read.1⟩
      else none

/-- A call that may send a frame. -/
inductive Call
  | present (width height stride : Int32) (pixels : ℕ → UInt8)
  | poll (stat : FileStat) (content : Bytes)
  | bitmap (bitmap : Bitmap)
  | raw (width height : Int32) (pixels : ℕ → UInt32)

namespace Call

/-- The frame it sends. -/
def frame (seen : FileStat) : Call → Option Frame
  | present width height stride pixels => presentRgba width height stride pixels
  | poll stat content => pollSoftwareFrame seen stat content
  | bitmap b => some (shimFrame b.width b.height b.pixels)
  | raw width height pixels => rawFrame width height pixels

/-- The header is the guest's. -/
def relays : Call → Bool
  | poll .. => true
  | _ => false

/-- The file that has been seen once the frame is sent. -/
def seen (last : FileStat) : Call → FileStat
  | poll stat _ => stat
  | _ => last

end Call

/-- A call, and how many bytes the socket takes before a write fails, if one
fails. -/
structure Send where
  call : Call
  room : Option ℕ := none

/-- One end of a connection: the frames that were sent in full, and what was
sent of the one in which a write failed. -/
structure Sender where
  seen : FileStat := {}
  isOpen : Bool := true
  frames : List Frame := []
  tail : Bytes := []

namespace Sender

/-- The bytes on the socket. -/
def sent (s : Sender) : Bytes :=
  s.frames.flatMap Frame.encode ++ s.tail

/-- One call. Where a write fails, the connection is closed. -/
def step (s : Sender) (e : Send) : Sender :=
  match s.isOpen, e.call.frame s.seen with
  | true, some f =>
    match e.room.filter (· < f.encode.length) with
    | none => { s with seen := e.call.seen s.seen, frames := s.frames ++ [f] }
    | some n => { s with isOpen := false, tail := f.encode.take n }
  | _, _ => s

end Sender

/-! ## What is read of a frame -/

section

variable {stream rest : Bytes} {size n m : ℕ} {f : Frame}

theorem readAll_append {head : Bytes} (h : head.length = size) :
    readAll (head ++ rest) size = some (head, rest) := by
  subst h
  rw [readAll, if_neg (by simp), List.take_left, List.drop_left]

theorem readAll_eq_some {r : Bytes × Bytes} (h : readAll stream size = some r) :
    size ≤ stream.length ∧ r = (stream.take size, stream.drop size) := by
  rw [readAll] at h
  split_ifs at h with hlt
  exact ⟨by omega, (Option.some.inj h).symm⟩

/-- A frame takes at least its header off the stream, so the length of the
stream is turns enough. -/
theorem readFrames_of_length (hn : stream.length < n) (hm : stream.length < m) :
    readFrames n stream = readFrames m stream := by
  induction n generalizing stream m with
  | zero => omega
  | succ n ih =>
    obtain ⟨m, rfl⟩ : ∃ k, m = k + 1 := ⟨m - 1, by omega⟩
    rw [readFrames, readFrames]
    split
    · rfl
    · next head rest hhead =>
      obtain ⟨hsize, heq⟩ := readAll_eq_some hhead
      obtain ⟨-, rfl⟩ := Prod.mk.inj heq
      dsimp only
      split_ifs
      · split
        · rfl
        · next pixels rest hpixels =>
          obtain ⟨-, heq⟩ := readAll_eq_some hpixels
          obtain ⟨-, rfl⟩ := Prod.mk.inj heq
          rw [ih (m := m)]
          · simp only [FrameHeader.size] at hsize ⊢
            simp only [List.length_drop]
            omega
          · simp only [FrameHeader.size] at hsize ⊢
            simp only [List.length_drop]
            omega
      · rfl

theorem Frame.length_encode (f : Frame) :
    f.encode.length = FrameHeader.size + f.pixels.length := by
  rw [encode, List.length_append, FrameHeader.length_encode]

/-- **A frame on the stream** is shown, if its header is accepted. -/
theorem receive_append (hfit : f.Fit) : receive (f.encode ++ rest) =
    if f.header.accepted then
      { receive rest with
        headers := f.header :: (receive rest).headers
        frames := f :: (receive rest).frames }
    else { rejected := true } := by
  rw [receive, readFrames, Frame.encode, List.append_assoc,
    readAll_append f.header.length_encode]
  dsimp only
  rw [FrameHeader.decode_encode]
  split_ifs with ha
  · rw [readAll_append hfit]
    dsimp only
    rw [receive, readFrames_of_length _ (Nat.lt_succ_self rest.length)]
    simp only [List.length_append, FrameHeader.length_encode, FrameHeader.size]
    omega
  · rfl

/-- **A frame that breaks off** leaves its header, if it has come so far. -/
theorem receive_take (hfit : f.Fit) (hn : n < f.encode.length) : receive (f.encode.take n) =
    if n < FrameHeader.size then {}
    else if f.header.accepted then { headers := [f.header] } else { rejected := true } := by
  rw [f.length_encode] at hn
  rw [receive, readFrames]
  split_ifs with hshort ha
  · rw [readAll, if_pos (by rw [List.length_take]; omega)]
  all_goals
    have htake : f.encode.take n = f.header.encode ++ f.pixels.take (n - FrameHeader.size) := by
      rw [Frame.encode, List.take_append, FrameHeader.length_encode,
        List.take_of_length_le (by rw [FrameHeader.length_encode]; omega)]
    rw [htake, readAll_append f.header.length_encode]
    dsimp only
    rw [FrameHeader.decode_encode]
  · rw [if_pos ha, readAll, if_pos]
    rw [List.length_take, ← hfit]
    omega
  · rw [if_neg ha]

/-- **Several frames** are shown one after the other, up to one that is
rejected. -/
theorem receive_frames {frames : List Frame} (hfit : ∀ f ∈ frames, f.Fit)
    (ha : ∀ f ∈ frames, f.header.accepted = true) : receive (frames.flatMap Frame.encode ++ rest) =
      { receive rest with
        headers := frames.map Frame.header ++ (receive rest).headers
        frames := frames ++ (receive rest).frames } := by
  induction frames with
  | nil => rfl
  | cons f frames ih =>
    rw [List.forall_mem_cons] at hfit ha
    rw [List.flatMap_cons, List.append_assoc, receive_append hfit.1, if_pos ha.1,
      ih hfit.2 ha.2]
    rfl

/-- And where one is rejected, the stream ends there. -/
theorem accepted_of_receive {frames : List Frame} (hfit : ∀ f ∈ frames, f.Fit)
    (hr : (receive (frames.flatMap Frame.encode ++ rest)).rejected = false) :
    ∀ f ∈ frames, f.header.accepted = true := by
  induction frames with
  | nil => nofun
  | cons f frames ih =>
    rw [List.forall_mem_cons] at hfit ⊢
    rw [List.flatMap_cons, List.append_assoc, receive_append hfit.1] at hr
    split_ifs at hr with ha
    exact ⟨ha, ih hfit.2 hr⟩

end

/-! ## What the senders send -/

section

variable {x : Int32} {width height stride : Int32}

theorem toNat_toUInt32 (h : 0 < x.toInt) : x.toUInt32.toNat = x.toNatClampNeg := by
  have hcond := BitVec.toInt_eq_toNat_cond x.toBitVec
  have hlt := x.toBitVec.isLt
  change 0 < x.toBitVec.toInt at h
  show x.toBitVec.toNat = x.toBitVec.toInt.toNat
  split at hcond <;> omega

theorem toNat_toSize (h : 0 < x.toInt) : (toSize x).toNat = x.toNatClampNeg := by
  have hcond := BitVec.toInt_eq_toNat_cond x.toInt64.toBitVec
  have hlt := x.toInt64.toBitVec.isLt
  have hsame : x.toInt64.toBitVec.toInt = x.toInt := Int32.toInt_toInt64 x
  rw [hsame] at hcond
  show x.toInt64.toBitVec.toNat = x.toInt.toNat
  split at hcond <;> omega

theorem toNatClampNeg_pos (h : 0 < x.toInt) : 0 < x.toNatClampNeg := by
  rw [← Int32.toNat_toInt]
  omega

variable (hwidth : 0 < width.toInt) (hheight : 0 < height.toInt)
include hwidth hheight

/-- Dimensions of 31 bits do not wrap. -/
theorem toNat_count : (toSize width * toSize height).toNat =
    width.toNatClampNeg * height.toNatClampNeg ∧
      (toSize width * toSize height * 4).toNat =
        width.toNatClampNeg * height.toNatClampNeg * 4 := by
  have hw := width.toNatClampNeg_lt
  have hh := height.toNatClampNeg_lt
  have hlt : width.toNatClampNeg * height.toNatClampNeg < 2 ^ 31 * 2 ^ 31 :=
    Nat.mul_lt_mul'' hw hh
  have hcount : (toSize width * toSize height).toNat =
      width.toNatClampNeg * height.toNatClampNeg := by
    rw [UInt64.toNat_mul, toNat_toSize hwidth, toNat_toSize hheight,
      Nat.mod_eq_of_lt (by omega)]
  refine ⟨hcount, ?_⟩
  have hfour : (4 : UInt64).toNat = 4 := rfl
  rw [UInt64.toNat_mul, hcount, hfour, Nat.mod_eq_of_lt (by omega)]

theorem area_madeHeader : (madeHeader width height).area =
    width.toNatClampNeg * height.toNatClampNeg := by
  rw [FrameHeader.area, madeHeader, toNat_toUInt32 hwidth, toNat_toUInt32 hheight]

/-- **A header that is made** is accepted and honest, if the frame is not
too large. -/
theorem madeHeader_good (hle : (madeHeader width height).area * 4 ≤ maxFrameBytes) :
    (madeHeader width height).accepted = true ∧ (madeHeader width height).Honest := by
  have harea := area_madeHeader hwidth hheight
  have hbytes : (madeHeader width height).bytes.toNat = (madeHeader width height).area * 4 :=
    (toNat_count hwidth hheight).2.trans (by rw [harea])
  have hpos : 0 < (madeHeader width height).area := by
    rw [harea]
    exact Nat.mul_pos (toNatClampNeg_pos hwidth) (toNatClampNeg_pos hheight)
  have hproduct : (madeHeader width height).bytes = (madeHeader width height).product := by
    rw [← UInt64.toNat_inj, hbytes, FrameHeader.toNat_product, Nat.mod_eq_of_lt]
    rw [maxFrameBytes] at hle
    omega
  refine ⟨FrameHeader.accepted_iff.mpr ⟨rfl, ?_, ?_, by omega, rfl, hproduct, by omega⟩,
    hbytes.symm, by omega, by omega⟩
  · exact (toNat_toUInt32 hwidth).symm ▸ toNatClampNeg_pos hwidth
  · exact (toNat_toUInt32 hheight).symm ▸ toNatClampNeg_pos hheight

theorem fit_shimFrame (pixels : ℕ → UInt32) : (shimFrame width height pixels).Fit := by
  have hrgba : ∀ argb, (rgba argb).length = 4 := fun _ => rfl
  rw [Frame.Fit, shimFrame, madeHeader, (toNat_count hwidth hheight).2,
    (toNat_count hwidth hheight).1]
  simp [List.length_flatMap, hrgba]

end

theorem presentRgba_eq_some {width height stride : Int32} {pixels : ℕ → UInt8} {f : Frame}
    (h : presentRgba width height stride pixels = some f) :
    0 < width.toInt ∧ 0 < height.toInt ∧ f.header = madeHeader width height ∧ f.Fit := by
  rw [presentRgba] at h
  split_ifs at h with hcond
  rw [not_or, not_or] at hcond
  have hwidth : 0 < width.toInt := Int32.lt_iff_toInt_lt.mp (Int32.not_le.mp hcond.1)
  have hheight : 0 < height.toInt := Int32.lt_iff_toInt_lt.mp (Int32.not_le.mp hcond.2.1)
  obtain rfl := Option.some.inj h
  refine ⟨hwidth, hheight, rfl, ?_⟩
  rw [Frame.Fit, madeHeader, (toNat_count hwidth hheight).2]
  simp only [List.length_flatMap, row, List.length_map, List.length_range, List.map_const',
    List.sum_replicate_nat]
  ac_rfl

theorem pollSoftwareFrame_eq_some {seen stat : FileStat} {content : Bytes} {f : Frame}
    (h : pollSoftwareFrame seen stat content = some f) :
    f.header.relayed stat.size = true ∧ f.Fit := by
  rw [pollSoftwareFrame] at h
  split_ifs at h
  split at h
  · cases h
  · next head rest hhead =>
    dsimp only at h
    split_ifs at h with hr
    obtain ⟨read, hread, rfl⟩ := Option.map_eq_some_iff.mp h
    obtain ⟨hsize, heq⟩ := readAll_eq_some hread
    refine ⟨hr, ?_⟩
    rw [Frame.Fit, heq, List.length_take]
    exact Nat.min_eq_left hsize

/-! ## Every run -/

/-- A header that is accepted and honest. -/
def Good (h : FrameHeader) : Prop :=
  h.accepted = true ∧ h.Honest

/-- **A stream arrives as it was sent**: what is shown is what was sent in
full, no header is rejected, and those that are accepted are honest. -/
structure Arrives (s : Sender) : Prop where
  frames : (receive s.sent).frames = s.frames
  rejected : (receive s.sent).rejected = false
  honest : ∀ h ∈ (receive s.sent).headers, h.Honest

namespace Sender

variable {s : Sender} {e : Send} {f : Frame}

/-- The header of a call, where it gets through. -/
def through (s : Sender) (e : Send) : Option FrameHeader :=
  if s.isOpen = true ∧ ∀ n ∈ e.room, FrameHeader.size ≤ n then
    (e.call.frame s.seen).map Frame.header
  else none

/-- The frames the calls make are no larger than the reader admits; of those
that are relayed nothing is known. -/
def Small (s : Sender) (e : Send) : Prop :=
  e.call.relays = false → ∀ f ∈ e.call.frame s.seen, f.header.area * 4 ≤ maxFrameBytes

/-- What is relayed has rows without padding and does not wrap. -/
def Plain (s : Sender) (e : Send) : Prop :=
  e.call.relays = true → ∀ h ∈ s.through e, h.stridePixels = h.width ∧ h.area < 2 ^ 62

instance : Decidable (Small s e) :=
  inferInstanceAs (Decidable (e.call.relays = false → ∀ f ∈ e.call.frame s.seen,
    f.header.area * 4 ≤ maxFrameBytes))

instance : Decidable (Plain s e) :=
  inferInstanceAs (Decidable (e.call.relays = true → ∀ h ∈ s.through e,
    h.stridePixels = h.width ∧ h.area < 2 ^ 62))

/-- **What every run keeps**: frames are as long as their headers name, and
nothing is left over while the connection is open. -/
structure Kept (s : Sender) : Prop where
  fit : ∀ f ∈ s.frames, f.Fit
  tail : s.isOpen = true → s.tail = []

section

variable (hk : Kept s) (hopen : s.isOpen = true)
include hk hopen

/-- While the connection is open, it is the headers that were sent that
matter. -/
theorem Kept.arrives_iff : Arrives s ↔ ∀ f ∈ s.frames, Good f.header := by
  have htail := hk.tail hopen
  have hnil : receive [] = {} := rfl
  constructor
  · intro ha f hf
    have hr := ha.rejected
    rw [sent] at hr
    have hacc := accepted_of_receive hk.fit hr
    have hhonest := ha.honest
    rw [sent, receive_frames hk.fit hacc, htail, hnil, List.append_nil] at hhonest
    exact ⟨hacc f hf, hhonest f.header (List.mem_map_of_mem hf)⟩
  · intro hgood
    have heq : receive (s.frames.flatMap Frame.encode ++ s.tail) = _ :=
      receive_frames hk.fit fun f hf => (hgood f hf).1
    rw [htail, hnil] at heq
    refine ⟨?_, ?_, ?_⟩
    all_goals rw [sent, htail, heq]
    · exact List.append_nil _
    · rintro h hh
      rw [List.append_nil] at hh
      obtain ⟨f, hf, rfl⟩ := List.mem_map.mp hh
      exact (hgood f hf).2

variable (ha : Arrives s) (hfit : f.Fit)
include ha hfit

/-- A frame that is sent in full. -/
theorem Kept.arrives_sent (seen : FileStat) :
    Arrives { s with seen, frames := s.frames ++ [f] } ↔ Good f.header := by
  have hgood := (hk.arrives_iff hopen).mp ha
  have hk' : Kept { s with seen, frames := s.frames ++ [f] } :=
    ⟨by simpa using fun f' hf' => hf'.elim (hk.fit f') (fun he => he ▸ hfit), hk.tail⟩
  rw [hk'.arrives_iff hopen]
  refine ⟨fun h => h f (by simp), fun h f' hf' => ?_⟩
  rcases List.mem_append.mp hf' with hf' | hf'
  · exact hgood f' hf'
  · rwa [List.mem_singleton.mp hf']

/-- A frame that breaks off. -/
theorem Kept.arrives_broken {n : ℕ} (hn : n < f.encode.length) :
    Arrives { s with isOpen := false, tail := f.encode.take n } ↔
      (FrameHeader.size ≤ n → Good f.header) := by
  have hgood := (hk.arrives_iff hopen).mp ha
  have heq : receive (sent { s with isOpen := false, tail := f.encode.take n }) = _ :=
    receive_frames hk.fit fun f' hf' => (hgood f' hf').1
  rw [receive_take hfit hn] at heq
  have hold : ∀ h ∈ s.frames.map Frame.header, h.Honest := fun h hh => by
    obtain ⟨f', hf', rfl⟩ := List.mem_map.mp hh
    exact (hgood f' hf').2
  split_ifs at heq with hshort hacc
  · refine iff_of_true ⟨?_, ?_, ?_⟩ fun hle => absurd hshort (by omega)
    all_goals rw [heq]
    · exact List.append_nil _
    · rwa [List.append_nil]
  · constructor
    · intro harrives _
      refine ⟨hacc, harrives.honest _ ?_⟩
      rw [heq]
      simp
    · intro hgood'
      refine ⟨?_, ?_, ?_⟩
      all_goals rw [heq]
      · exact List.append_nil _
      · intro h hh
        rcases List.mem_append.mp hh with hh | hh
        · exact hold h hh
        · rw [List.mem_singleton.mp hh]
          exact (hgood' (by omega)).2
  · refine iff_of_false (fun harrives => ?_) fun hgood' => hacc (hgood' (by omega)).1
    have hr := harrives.rejected
    rw [heq] at hr
    cases hr

end

end Sender

/-- **The header of a call** is good, unless it is the guest's and pads its
rows or wraps. -/
theorem Call.good_iff {call : Call} {seen : FileStat} {f : Frame}
    (hf : call.frame seen = some f)
    (hsmall : call.relays = false → f.header.area * 4 ≤ maxFrameBytes) :
    f.Fit ∧ (Good f.header ↔
      (call.relays = true → f.header.stridePixels = f.header.width ∧ f.header.area < 2 ^ 62)) := by
  cases call with
  | present width height stride pixels =>
    obtain ⟨hwidth, hheight, hheader, hfit⟩ := presentRgba_eq_some hf
    rw [hheader] at hsmall ⊢
    exact ⟨hfit, iff_of_true (madeHeader_good hwidth hheight (hsmall rfl)) nofun⟩
  | poll stat content =>
    obtain ⟨hr, hfit⟩ := pollSoftwareFrame_eq_some hf
    refine ⟨hfit, (FrameHeader.relayed_good_iff hr).trans ?_⟩
    simp [relays]
  | bitmap b =>
    obtain rfl := Option.some.inj hf
    exact ⟨fit_shimFrame b.width_pos b.height_pos _,
      iff_of_true (madeHeader_good b.width_pos b.height_pos (hsmall rfl)) nofun⟩
  | raw width height pixels =>
    change rawFrame width height pixels = some f at hf
    rw [rawFrame] at hf
    split_ifs at hf with hcond
    rw [not_or] at hcond
    have hwidth := Int32.lt_iff_toInt_lt.mp (Int32.not_le.mp hcond.1)
    have hheight := Int32.lt_iff_toInt_lt.mp (Int32.not_le.mp hcond.2)
    obtain rfl := Option.some.inj hf
    exact ⟨fit_shimFrame hwidth hheight _,
      iff_of_true (madeHeader_good hwidth hheight (hsmall rfl)) nofun⟩

namespace Sender

variable {s : Sender} {e : Send} {f : Frame}

/-- What a call does: nothing, or it sends a frame in full, or one that
breaks off. -/
theorem step_cases (s : Sender) (e : Send) :
    (s.step e = s ∧ s.through e = none) ∨
      s.isOpen = true ∧ ∃ f, e.call.frame s.seen = some f ∧
        ((s.step e = { s with seen := e.call.seen s.seen, frames := s.frames ++ [f] } ∧
            s.through e = some f.header) ∨
          ∃ n, n < f.encode.length ∧
            s.step e = { s with isOpen := false, tail := f.encode.take n } ∧
              s.through e = if FrameHeader.size ≤ n then some f.header else none) := by
  rw [step, through]
  cases hopen : s.isOpen with
  | false => exact Or.inl ⟨rfl, if_neg (by simp)⟩
  | true =>
    cases hf : e.call.frame s.seen with
    | none => exact Or.inl ⟨rfl, by simp⟩
    | some f =>
      refine Or.inr ⟨rfl, f, rfl, ?_⟩
      dsimp only
      cases hroom : e.room.filter (· < f.encode.length) with
      | none =>
        refine Or.inl ⟨rfl, if_pos ⟨rfl, fun n hn => ?_⟩⟩
        have hlong : ¬n < f.encode.length := by
          simpa using Option.filter_eq_none_iff.mp hroom n hn
        rw [f.length_encode] at hlong
        omega
      | some n =>
        obtain ⟨hn, hlt⟩ := Option.filter_eq_some_iff.mp hroom
        refine Or.inr ⟨n, by simpa using hlt, rfl, ?_⟩
        rw [hn]
        simp

theorem Kept.step (hk : s.Kept) (hsmall : s.Small e) : (s.step e).Kept := by
  rcases step_cases s e with ⟨he, -⟩ | ⟨hopen, f, hf, ⟨he, -⟩ | ⟨n, -, he, -⟩⟩
  · rwa [he]
  · rw [he]
    have hfit := (Call.good_iff hf fun hr => hsmall hr f hf).1
    exact ⟨by simpa using fun f' hf' => hf'.elim (hk.fit f') (fun he => he ▸ hfit), hk.tail⟩
  · rw [he]
    exact ⟨hk.fit, nofun⟩

/-- **One call** lets the stream arrive exactly where what is relayed is
plain. -/
theorem Kept.arrives_step_iff (hk : s.Kept) (ha : Arrives s) (hsmall : s.Small e) :
    Arrives (s.step e) ↔ s.Plain e := by
  rw [Plain]
  rcases step_cases s e with ⟨he, ht⟩ | ⟨hopen, f, hf, ⟨he, ht⟩ | ⟨n, hn, he, ht⟩⟩
  · rw [he, ht]
    exact iff_of_true ha nofun
  · obtain ⟨hfit, hgood⟩ := Call.good_iff hf fun hr => hsmall hr f hf
    rw [he, ht, hk.arrives_sent hopen ha hfit, hgood]
    simp
  · obtain ⟨hfit, hgood⟩ := Call.good_iff hf fun hr => hsmall hr f hf
    rw [he, ht, hk.arrives_broken hopen ha hfit hn, hgood]
    by_cases hsize : FrameHeader.size ≤ n
    · simp [hsize]
    · simp [hsize]

theorem kept_initial : Kept {} :=
  ⟨nofun, fun _ => rfl⟩

theorem arrives_initial : Arrives {} :=
  (kept_initial.arrives_iff rfl).mpr nofun

end Sender

/-- **Frame transport.** What a reader accepts is honest exactly where the
dimensions do not wrap, and the stream of a sender arrives as it was sent
exactly where no header that is relayed pads its rows or wraps. -/
theorem frames_arrive_iff (es : List Send) (hsmall : Meets Sender.step Sender.Small {} es) :
    (∀ h : FrameHeader, h.accepted = true → (h.Honest ↔ h.area < 2 ^ 62)) ∧
      (∀ (h : FrameHeader) (fileSize : ℕ), h.relayed fileSize = true →
        (h.Honest ↔ h.area < 2 ^ 62)) ∧
      (Throughout Sender.step Arrives {} es ↔ Meets Sender.step Sender.Plain {} es) :=
  ⟨fun _ => FrameHeader.accepted_honest_iff, fun _ _ => FrameHeader.relayed_honest_iff,
    throughout_iff_meets (fun _ _ hk hs => hk.step hs) (fun _ _ hk ha hs => hk.arrives_step_iff ha hs)
      Sender.kept_initial Sender.arrives_initial hsmall⟩

/-- A pixel of the guest's, and a frame file whose rows have the given
stride. -/
def pixelThenFile (stride : UInt32) : List Send :=
  [{ call := .raw 1 1 fun _ => 0xff102030 },
    { call := .poll { size := 28, mtimeSec := 1 }
        ({ width := 1, height := 1, stridePixels := stride, bytes := 4 : FrameHeader }.encode ++
          [1, 2, 3, 4]) }]

theorem frames_arrive_pixelThenFile :
    Throughout Sender.step Arrives {} (pixelThenFile 1) :=
  ((frames_arrive_iff (pixelThenFile 1) (by decide +kernel)).2.2).mpr (by decide +kernel)

/-- Dimensions whose product is 41708 more than `2 ^ 62`. -/
def wrapped : FrameHeader :=
  { width := 2147437308, height := 2147529989, stridePixels := 2147437308, bytes := 166832 }

/-- **A header that wraps** is accepted by both readers, and a file with
padded rows is sent on and rejected. -/
theorem wrapped_and_padded :
    (¬∀ h : FrameHeader, h.accepted = true → h.Honest) ∧
      (¬∀ (h : FrameHeader) (fileSize : ℕ), h.relayed fileSize = true → h.Honest) ∧
      ¬∀ es : List Send, Meets Sender.step Sender.Small {} es →
        Throughout Sender.step Arrives {} es := by
  have hwrapped : ¬wrapped.Honest := fun h => absurd h.product (by decide +kernel)
  refine ⟨fun hall => hwrapped (hall wrapped (by decide +kernel)),
    fun hall => hwrapped (hall wrapped 166856 (by decide +kernel)), fun hall => ?_⟩
  have hrejected := (hall (pixelThenFile 2) (by decide +kernel)).last.rejected
  revert hrejected
  decide +kernel

end Frames

end Muplar
