import Mathlib.Data.List.TakeWhile
import Muplar.Common.Transfer
import Muplar.Framework.Action
/-!
# The framework — messages on the daemon's socket

The daemon copies a `MessageHeader` as it stands in memory, padding and
all; `MuplarSocketClient` writes and reads the same fields by hand. The two
agree on where every field stands, on the limit for payloads, and each
stops at a header it does not like, after which its caller closes the
socket.

What they do not agree on is what a header says of a payload that is too
long for it. A Java array is never so long; a `std::string` may be, and
`send_message` keeps the low 32 bits of its length. Where these come to
something small the header is accepted, and what follows it is read as the
next header (`streams_agree_iff`).
-/

namespace Muplar

namespace Framework

namespace Socket

open Daemon Transfer

/-- The end of a socket that is written to. -/
abbrev Outlet := Transfer.Outlet UInt8

/-- The end of a socket that is read from. -/
abbrev Inlet := Transfer.Inlet UInt8

/-! ## The header in memory -/

/-- `sizeof(MessageHeader)`, and `HEADER_SIZE`. -/
def headerSize : ℕ := 24

/-- The fields of a header one after the other. What stands in the padding
is not said. -/
def headerFields (padding : UInt32) (h : Header) : List Bytes :=
  [encodeLe 4 h.magic.toNat, encodeLe 2 h.version.toNat, encodeLe 2 h.opcode.toNat,
    encodeLe 4 h.payloadSize.toNat, encodeLe 4 padding.toNat, encodeLe 8 h.requestId.toNat]

/-- A header as it stands in memory. -/
def headerBytes (padding : UInt32) (h : Header) : Bytes :=
  (headerFields padding h).flatten

/-- The header that stands in memory. -/
def headerAt (data : Bytes) : Header where
  magic := UInt32.ofNat (le (slice data 0 4))
  version := UInt16.ofNat (le (slice data 4 2))
  opcode := UInt16.ofNat (le (slice data 6 2))
  payloadSize := UInt32.ofNat (le (slice data 8 4))
  requestId := UInt64.ofNat (le (slice data 16 8))

/-! ## The daemon -/

def kReplyFlag : UInt16 := 0x8000

/-- What `send_message` is called with. -/
structure Sent where
  opcode : UInt16
  requestId : UInt64
  payload : Bytes
  reply : Bool := true
  deriving DecidableEq

/-- The opcode of the header. -/
def Sent.wireOpcode (m : Sent) : UInt16 :=
  m.opcode ||| (if m.reply then kReplyFlag else 0)

/-- The header `send_message` makes. -/
def Sent.header (m : Sent) : Header where
  magic := kProtocolMagic
  version := kProtocolVersion
  opcode := m.wireOpcode
  payloadSize := UInt32.ofNat m.payload.length
  requestId := m.requestId

/-- The packet `send_message` makes. -/
def Sent.packet (padding : UInt32) (m : Sent) : Bytes :=
  headerBytes padding m.header ++ m.payload

/-- `send_message`. -/
def sendMessage (padding : UInt32) (o : Outlet) (m : Sent) : Bool × Outlet :=
  o.putAll (m.packet padding)

/-- `receive_exact`. -/
def receiveExact (i : Inlet) (size : ℕ) : Option Bytes × Inlet :=
  i.getAll size

/-- `receive_message`. -/
def receiveMessage (i : Inlet) : Option (Header × Bytes) × Inlet :=
  match receiveExact i headerSize with
  | (none, i) => (none, i)
  | (some data, i) =>
    let header := headerAt data
    if header.magic ≠ kProtocolMagic ∨ header.version ≠ kProtocolVersion ∨
        header.payloadSize > kMaxPayloadSize then (none, i)
    else if header.payloadSize = 0 then (some (header, []), i)
    else
      match receiveExact i header.payloadSize.toNat with
      | (none, i) => (none, i)
      | (some payload, i) => (some (header, payload), i)

/-! ## The framework -/

/-- `putInt`. -/
def putInt (x : Int32) : Bytes :=
  encodeLe 4 x.toUInt32.toNat

/-- `putShort`. -/
def putShort (x : Int16) : Bytes :=
  encodeLe 2 x.toUInt16.toNat

/-- `putLong`. -/
def putLong (x : Int64) : Bytes :=
  encodeLe 8 x.toUInt64.toNat

/-- `getInt`, where the buffer has come to `at_`. -/
def getInt (data : Bytes) (at_ : ℕ) : Int32 :=
  (UInt32.ofNat (le (slice data at_ 4))).toInt32

/-- `getShort`, where the buffer has come to `at_`. -/
def getShort (data : Bytes) (at_ : ℕ) : Int16 :=
  (UInt16.ofNat (le (slice data at_ 2))).toInt16

/-- `MAGIC`. -/
def socketMagic : Int32 := 0x4d555044

/-- `VERSION`. -/
def socketVersion : Int32 := 1

/-- `MAX_PAYLOAD_SIZE`. -/
def maxPayloadSize : Int32 := 1024 * 1024

/-- The payload of `sendFrame` as an array. The length of an array is an
`int`, and `getBytes` throws where that is not enough. -/
def payloadBytes (payload : Option JavaString) : Option Bytes :=
  match payload with
  | none => some []
  | some s => if s.getBytes.length < 2 ^ 31 then some s.getBytes else none

/-- The header `sendFrame` writes. -/
def frameHeader (opcode : Int32) (length : ℕ) : Bytes :=
  putInt socketMagic ++ (putShort socketVersion.toInt16 ++ (putShort opcode.toInt16 ++
    (putInt (Int32.ofNat length) ++ (putInt 0 ++ putLong 1))))

/-- `sendFrame`; there is no answer where it throws. -/
def sendFrame (o : Outlet) (opcode : Int32) (payload : Option JavaString) : Option Bool × Outlet :=
  match payloadBytes payload with
  | none => (none, o)
  | some bytes =>
    match o.putAll (frameHeader opcode bytes.length) with
    | (false, o) => (some false, o)
    | (true, o) => (some (o.putAll bytes).1, (o.putAll bytes).2)

/-- `MuplarSocketClient.Frame`. -/
structure Frame where
  opcode : Int32
  payload : JavaString
  deriving DecidableEq

/-- `MuplarSocketClient.readAll`. -/
def readAll (i : Inlet) (length : ℕ) : Option Bytes × Inlet :=
  i.getAll length

/-- `readFrame`. -/
def readFrame (J : JavaLibrary) (i : Inlet) : Option Frame × Inlet :=
  match readAll i headerSize with
  | (none, i) => (none, i)
  | (some header, i) =>
    let magic := getInt header 0
    let version := (getShort header 4).toInt32 &&& 0xFFFF
    let opcode := (getShort header 6).toInt32 &&& 0xFFFF
    let payloadSize := getInt header 8
    if magic ≠ socketMagic ∨ version ≠ socketVersion ∨ payloadSize < 0 ∨
        payloadSize > maxPayloadSize then (none, i)
    else if payloadSize > 0 then
      match readAll i payloadSize.toNatClampNeg with
      | (none, i) => (none, i)
      | (some bytes, i) => (some ⟨opcode, J.decodeUtf8 bytes⟩, i)
    else (some ⟨opcode, []⟩, i)

/-! ## One reader -/

/-- An opcode as an `int`. -/
def toInt (opcode : UInt16) : Int32 :=
  opcode.toUInt32.toInt32

/-- Both readers: a header, and as much as it says. -/
def receiveWith {β : Type} (make : Header → Bytes → β) (i : Inlet) : Option β × Inlet :=
  match i.getAll headerSize with
  | (none, i) => (none, i)
  | (some data, i) =>
    if (headerAt data).wellFormed then
      match i.getAll (headerAt data).payloadSize.toNat with
      | (none, i) => (none, i)
      | (some payload, i) => (some (make (headerAt data) payload), i)
    else (none, i)

theorem getAll_zero (i : Inlet) : i.getAll 0 = (some [], i) := by
  rw [Transfer.Inlet.getAll, if_pos rfl]

theorem not_wellFormed_iff {h : Header} : h.wellFormed = false ↔
    h.magic ≠ kProtocolMagic ∨ h.version ≠ kProtocolVersion ∨ h.payloadSize > kMaxPayloadSize := by
  rw [Header.wellFormed, Bool.and_eq_false_iff, Bool.and_eq_false_iff, decide_eq_false_iff_not,
    decide_eq_false_iff_not, decide_eq_false_iff_not, UInt32.not_le, or_assoc]

/-- **The daemon's reader.** -/
theorem receiveMessage_eq (i : Inlet) : receiveMessage i = receiveWith Prod.mk i := by
  rw [receiveMessage, receiveWith, receiveExact]
  rcases i.getAll headerSize with ⟨_ | data, i⟩
  · rfl
  · dsimp only
    cases hok : (headerAt data).wellFormed with
    | false => rw [if_pos (not_wellFormed_iff.mp hok), if_neg Bool.false_ne_true]
    | true =>
      rw [if_neg (fun hbad => by rw [not_wellFormed_iff.mpr hbad] at hok; cases hok), if_pos rfl]
      by_cases hzero : (headerAt data).payloadSize = 0
      · rw [if_pos hzero, hzero, UInt32.toNat_zero, getAll_zero]
      · rw [if_neg hzero]
        rfl

/-! ## The two headers -/

theorem toInt16_toInt32_and (x : UInt16) : x.toInt16.toInt32 &&& 0xFFFF = toInt x := by
  apply Int32.toBitVec_inj.mp
  have hmask : (0xFFFF : Int32).toBitVec = (BitVec.allOnes 16).setWidth 32 := rfl
  rw [Int32.toBitVec_and, hmask]
  show x.toBitVec.signExtend 32 &&& _ = x.toBitVec.setWidth 32
  ext i hi
  rw [BitVec.getElem_and, BitVec.getElem_signExtend, BitVec.getElem_setWidth,
    BitVec.getElem_setWidth, BitVec.getLsbD_allOnes]
  by_cases hlow : i < 16
  · rw [dif_pos hlow, decide_eq_true hlow, Bool.and_true, BitVec.getLsbD_eq_getElem]
  · rw [decide_eq_false hlow, Bool.and_false, BitVec.getLsbD_of_ge _ _ (by omega)]

theorem toInt32_inj {x y : UInt32} : x.toInt32 = y.toInt32 ↔ x = y := by
  constructor
  · intro h
    exact congrArg Int32.toUInt32 h
  · rintro rfl
    rfl

theorem toInt_inj {x y : UInt16} : toInt x = toInt y ↔ x = y := by
  constructor
  · intro h
    have hback := congrArg (fun z : Int32 => z.toUInt32.toUInt16) h
    simpa [toInt] using hback
  · rintro rfl
    rfl

theorem toInt_toInt32 (x : UInt32) : x.toInt32.toInt =
    if x.toNat < 2 ^ 31 then (x.toNat : ℤ) else x.toNat - 2 ^ 32 := by
  have hcond := BitVec.toInt_eq_toNat_cond x.toBitVec
  have hint : x.toInt32.toInt = x.toBitVec.toInt := rfl
  have hnat : x.toBitVec.toNat = x.toNat := rfl
  rw [hint]
  split at hcond <;> split <;> omega

/-- A size that is not too large is not negative. -/
theorem size_bounds_iff (x : UInt32) : (x.toInt32 < 0 ∨ x.toInt32 > maxPayloadSize) ↔
    x > kMaxPayloadSize := by
  have hlt := x.toNat_lt
  have hzero : (0 : Int32).toInt = 0 := rfl
  have hmax : maxPayloadSize.toInt = 1048576 := rfl
  have hkmax : kMaxPayloadSize.toNat = 1048576 := rfl
  rw [gt_iff_lt, gt_iff_lt, Int32.lt_iff_toInt_lt, Int32.lt_iff_toInt_lt, UInt32.lt_iff_toNat_lt,
    hzero, hmax, hkmax, toInt_toInt32]
  split <;> omega

/-- And so it is read the same as an `int`. -/
theorem size_pos_iff {x : UInt32} (h : ¬x > kMaxPayloadSize) : (x.toInt32 > 0 ↔ x ≠ 0) ∧
    x.toInt32.toNatClampNeg = x.toNat := by
  have hzero : (0 : Int32).toInt = 0 := rfl
  have hkmax : kMaxPayloadSize.toNat = 1048576 := rfl
  rw [gt_iff_lt, UInt32.lt_iff_toNat_lt, hkmax] at h
  have hx := toInt_toInt32 x
  rw [if_pos (by omega)] at hx
  rw [gt_iff_lt, Int32.lt_iff_toInt_lt, hzero, hx, ← Int32.toNat_toInt, hx, Int.toNat_natCast,
    ne_eq, ← UInt32.toNat_inj, UInt32.toNat_zero]
  omega

/-- **The framework's reader** is the same. -/
theorem readFrame_eq (J : JavaLibrary) (i : Inlet) : readFrame J i =
    receiveWith (fun h payload => ⟨toInt h.opcode, J.decodeUtf8 payload⟩) i := by
  rw [readFrame, receiveWith, readAll]
  rcases i.getAll headerSize with ⟨_ | data, i⟩
  · rfl
  · dsimp only
    have hmagic : getInt data 0 = (headerAt data).magic.toInt32 := rfl
    have hversion : (getShort data 4).toInt32 &&& 0xFFFF = toInt (headerAt data).version :=
      toInt16_toInt32_and _
    have hopcode : (getShort data 6).toInt32 &&& 0xFFFF = toInt (headerAt data).opcode :=
      toInt16_toInt32_and _
    have hsize : getInt data 8 = (headerAt data).payloadSize.toInt32 := rfl
    rw [hmagic, hversion, hopcode, hsize]
    generalize headerAt data = h
    have hbad : (h.magic.toInt32 ≠ socketMagic ∨ toInt h.version ≠ socketVersion ∨
        h.payloadSize.toInt32 < 0 ∨ h.payloadSize.toInt32 > maxPayloadSize) ↔
          h.wellFormed = false := by
      have hkmagic : socketMagic = kProtocolMagic.toInt32 := rfl
      have hkversion : socketVersion = toInt kProtocolVersion := rfl
      rw [not_wellFormed_iff, size_bounds_iff, hkmagic, hkversion, ne_eq, toInt32_inj, ne_eq,
        toInt_inj]
    cases hok : h.wellFormed with
    | false => rw [if_pos (hbad.mpr hok), if_neg Bool.false_ne_true]
    | true =>
      rw [if_neg (fun hb => by rw [hbad.mp hb] at hok; cases hok), if_pos rfl]
      have hsmall : ¬h.payloadSize > kMaxPayloadSize := fun hb => by
        rw [not_wellFormed_iff.mpr (Or.inr (Or.inr hb))] at hok
        cases hok
      obtain ⟨hpos, hnat⟩ := size_pos_iff hsmall
      by_cases hzero : h.payloadSize = 0
      · rw [if_neg (fun hp => hpos.mp hp hzero), hzero, UInt32.toNat_zero, getAll_zero]
        rfl
      · rw [if_pos (hpos.mpr hzero), hnat]
        rfl

variable (padding : UInt32) (h : Header)

theorem length_headerBytes : (headerBytes padding h).length = headerSize := by
  simp [headerBytes, headerFields, headerSize]

theorem slice_headerBytes {i off len : ℕ} {field : Bytes}
    (hfield : (headerFields padding h)[i]? = some field)
    (hoff : off = ((headerFields padding h).take i).flatten.length)
    (hlen : len = field.length) : slice (headerBytes padding h) off len = field := by
  have hslice : slice ([] ++ ((headerFields padding h).flatten ++ [])) off len = field :=
    slice_record hfield (hoff.trans (Nat.zero_add _).symm) rfl hlen
  rwa [List.nil_append, List.append_nil] at hslice

/-- **A header is read back**, whatever the padding. -/
theorem headerAt_headerBytes : headerAt (headerBytes padding h) = h := by
  have hmagic : slice (headerBytes padding h) 0 4 = encodeLe 4 h.magic.toNat :=
    slice_headerBytes padding h (i := 0) rfl (by simp [headerFields]) (by simp)
  have hversion : slice (headerBytes padding h) 4 2 = encodeLe 2 h.version.toNat :=
    slice_headerBytes padding h (i := 1) rfl (by simp [headerFields]) (by simp)
  have hopcode : slice (headerBytes padding h) 6 2 = encodeLe 2 h.opcode.toNat :=
    slice_headerBytes padding h (i := 2) rfl (by simp [headerFields]) (by simp)
  have hsize : slice (headerBytes padding h) 8 4 = encodeLe 4 h.payloadSize.toNat :=
    slice_headerBytes padding h (i := 3) rfl (by simp [headerFields]) (by simp)
  have hrequest : slice (headerBytes padding h) 16 8 = encodeLe 8 h.requestId.toNat :=
    slice_headerBytes padding h (i := 5) rfl (by simp [headerFields]) (by simp)
  rw [headerAt, hmagic, hversion, hopcode, hsize, hrequest]
  rw [le_encodeLe h.magic.toNat_lt, le_encodeLe h.version.toNat_lt, le_encodeLe h.opcode.toNat_lt,
    le_encodeLe h.payloadSize.toNat_lt, le_encodeLe h.requestId.toNat_lt]
  simp

/-- **The header that is written by hand** is one of the daemon's, with the
padding zero. -/
theorem frameHeader_eq (opcode : UInt16) (n : ℕ) : frameHeader (toInt opcode) n =
    headerBytes 0 {
      magic := kProtocolMagic, version := kProtocolVersion, opcode,
      payloadSize := UInt32.ofNat n, requestId := 1 } := by
  have hopcode : (toInt opcode).toInt16.toUInt16 = opcode := by
    apply UInt16.toBitVec_inj.mp
    show (opcode.toBitVec.setWidth 32).signExtend 16 = opcode.toBitVec
    ext i hi
    rw [BitVec.getElem_signExtend, dif_pos (by omega), BitVec.getElem_setWidth,
      BitVec.getLsbD_eq_getElem]
  have hlength : (Int32.ofNat n).toUInt32 = UInt32.ofNat n := rfl
  rw [frameHeader, putInt, putShort, putShort, putInt, putInt, putLong, hopcode, hlength]
  rfl

/-! ## One message -/

variable {padding h} {β : Type} {make : Header → Bytes → β} {payload : Bytes}

variable (make) in
theorem receiveWith_append {i : Inlet} {rest : Bytes}
    (hleft : i.left = headerBytes padding h ++ rest) : ∃ i' : Inlet, i'.left = rest ∧
      receiveWith make i =
        if h.wellFormed then
          match i'.getAll h.payloadSize.toNat with
          | (none, i) => (none, i)
          | (some payload, i) => (some (make h payload), i)
        else (none, i') := by
  obtain ⟨i', hread, hrest⟩ := getAll_append hleft (length_headerBytes padding h)
  refine ⟨i', hrest, ?_⟩
  rw [receiveWith, hread]
  dsimp only
  rw [headerAt_headerBytes]

/-- A message whose header is right about it is taken. -/
theorem takes_message (hok : h.wellFormed = true) (hsize : payload.length = h.payloadSize.toNat) :
    Takes (receiveWith make) (headerBytes padding h ++ payload) (make h payload) := by
  intro i rest hleft
  rw [List.append_assoc] at hleft
  obtain ⟨i₁, hleft₁, hread⟩ := receiveWith_append make hleft
  obtain ⟨i', hpayload, hrest⟩ := getAll_append hleft₁ hsize
  rw [if_pos hok, hpayload] at hread
  exact ⟨i', hread, hrest⟩

/-- One whose header is not accepted is not. -/
theorem refuses_message (hbad : h.wellFormed = false) :
    Refuses (receiveWith make) (headerBytes padding h ++ payload) := by
  intro i rest hleft
  rw [List.append_assoc] at hleft
  obtain ⟨i₁, -, hread⟩ := receiveWith_append make hleft
  rw [hread, hbad, if_neg Bool.false_ne_true]

/-- And something is made of one whose header says too little. -/
theorem some_of_short (hok : h.wellFormed = true) (hsize : h.payloadSize.toNat ≤ payload.length)
    {i : Inlet} {rest : Bytes} (hleft : i.left = headerBytes padding h ++ payload ++ rest) :
    (receiveWith make i).1.isSome = true := by
  rw [List.append_assoc] at hleft
  obtain ⟨i₁, hleft₁, hread⟩ := receiveWith_append make hleft
  have hpart : i₁.left = payload.take h.payloadSize.toNat ++
      (payload.drop h.payloadSize.toNat ++ rest) := by
    rw [hleft₁, ← List.append_assoc, List.take_append_drop]
  obtain ⟨i', hpayload, -⟩ := getAll_append hpart (List.length_take_of_le hsize)
  rw [hread, if_pos hok, hpayload]
  rfl

theorem receiveWith_end {i : Inlet} (hleft : i.left = []) :
    (receiveWith make i).1 = none ∧ (receiveWith make i).2.left = [] := by
  obtain ⟨hread, hrest⟩ := getAll_spec i headerSize
  rw [hleft, if_neg (by decide)] at hread
  rw [hleft, List.drop_nil] at hrest
  rw [receiveWith]
  split
  · next i' heq =>
    rw [heq] at hrest
    exact ⟨rfl, hrest⟩
  · next data i' heq =>
    rw [heq] at hread
    cases hread

/-! ## Streams -/

/-- The payload is within the limit. -/
def Sent.fits (m : Sent) : Bool :=
  m.payload.length ≤ kMaxPayloadSize.toNat

/-- Messages one after the other, each with what its padding happens to
be. -/
def sendMessages (o : Outlet) (ms : List (UInt32 × Sent)) : Outlet :=
  ms.foldl (fun o m => (sendMessage m.1 o m.2).2) o

/-- Frames one after the other. -/
def sendFrames (o : Outlet) (ms : List (UInt16 × Option JavaString)) : Outlet :=
  ms.foldl (fun o m => (sendFrame o (toInt m.1) m.2).2) o

/-- The frames that are not refused by their sender, with their payloads. -/
def written (ms : List (UInt16 × Option JavaString)) : List (UInt16 × Bytes) :=
  ms.filterMap fun m => (payloadBytes m.2).map fun bytes => (m.1, bytes)

/-- The frame is the message: the opcode, and the text if it is text. -/
def Sent.IsFrame (m : Sent) (f : Frame) : Prop :=
  f.opcode = toInt m.wireOpcode ∧ ∀ text, m.payload = utf8 text → f.payload = utf16 text

/-- **The framework reads what the daemon wrote**, up to a message that is
over the limit, and nothing from there on. -/
structure FramesAgree (J : JavaLibrary) (ms : List (UInt32 × Sent)) (writing reading : Pace) :
    Prop where
  frames : List.Forall₂ (fun m f => m.2.IsFrame f) (ms.takeWhile (·.2.fits))
    (receiveAll (readFrame J)
      { pace := reading, left := (sendMessages { pace := writing } ms).sent }).1
  nothing_left : (∀ m ∈ ms, m.2.fits = true) →
    (receiveAll (readFrame J)
      { pace := reading, left := (sendMessages { pace := writing } ms).sent }).2.left = []

/-- **The daemon reads what the framework wrote**, up to a frame that is
over the limit, and nothing from there on. -/
structure MessagesAgree (ms : List (UInt16 × Option JavaString)) (writing reading : Pace) :
    Prop where
  messages : (receiveAll receiveMessage
      { pace := reading, left := (sendFrames { pace := writing } ms).sent }).1.map
        (fun m => (m.1.opcode, m.2)) =
    (written ms).takeWhile (·.2.length ≤ kMaxPayloadSize.toNat)
  nothing_left : (∀ m ∈ written ms, m.2.length ≤ kMaxPayloadSize.toNat) →
    (receiveAll receiveMessage
      { pace := reading, left := (sendFrames { pace := writing } ms).sent }).2.left = []

theorem sent_sendMessages (o : Outlet) (ms : List (UInt32 × Sent)) :
    (sendMessages o ms).sent = o.sent ++ ms.flatMap fun m => m.2.packet m.1 := by
  induction ms generalizing o with
  | nil => exact (List.append_nil _).symm
  | cons m ms ih =>
    rw [sendMessages, List.foldl_cons, ← sendMessages, ih, sendMessage, (putAll_spec o _).2,
      List.flatMap_cons, List.append_assoc]

/-- The header of a frame. -/
def frameOf (m : UInt16 × Bytes) : Header where
  magic := kProtocolMagic
  version := kProtocolVersion
  opcode := m.1
  payloadSize := UInt32.ofNat m.2.length
  requestId := 1

theorem sent_sendFrame (o : Outlet) (opcode : UInt16) (payload : Option JavaString) :
    (sendFrame o (toInt opcode) payload).2.sent = o.sent ++
      ((payloadBytes payload).map fun bytes =>
        headerBytes 0 (frameOf (opcode, bytes)) ++ bytes).getD [] := by
  rw [sendFrame]
  cases payloadBytes payload with
  | none => exact (List.append_nil _).symm
  | some bytes =>
    obtain ⟨htrue, hsent⟩ := putAll_spec o (frameHeader (toInt opcode) bytes.length)
    rw [frameHeader_eq] at htrue hsent
    dsimp only
    rw [frameHeader_eq]
    split
    · next o' heq =>
      rw [heq] at htrue
      cases htrue
    · next o' heq =>
      rw [heq] at hsent
      rw [(putAll_spec o' bytes).2, hsent, List.append_assoc]
      rfl

theorem written_cons (m : UInt16 × Option JavaString) (ms : List (UInt16 × Option JavaString)) :
    written (m :: ms) = ((payloadBytes m.2).map fun bytes => (m.1, bytes)).toList ++ written ms := by
  rw [written, List.filterMap_cons]
  cases payloadBytes m.2 <;> rfl

theorem sent_sendFrames (o : Outlet) (ms : List (UInt16 × Option JavaString)) :
    (sendFrames o ms).sent = o.sent ++
      (written ms).flatMap fun m => headerBytes 0 (frameOf m) ++ m.2 := by
  induction ms generalizing o with
  | nil => exact (List.append_nil _).symm
  | cons m ms ih =>
    rw [sendFrames, List.foldl_cons, ← sendFrames, ih, sent_sendFrame, written_cons,
      List.flatMap_append, List.append_assoc]
    cases payloadBytes m.2 with
    | none => rfl
    | some bytes =>
      rw [Option.map_some, Option.map_some, Option.toList_some, List.flatMap_singleton]
      rfl

/-- A header is accepted for the length it says. -/
theorem wellFormed_iff {opcode : UInt16} {request : UInt64} {n : ℕ} :
    ({ magic := kProtocolMagic, version := kProtocolVersion, opcode,
       payloadSize := UInt32.ofNat n, requestId := request } : Header).wellFormed = true ↔
      n % 2 ^ 32 ≤ kMaxPayloadSize.toNat := by
  rw [Header.wellFormed, decide_eq_true rfl, decide_eq_true rfl, Bool.and_self, Bool.true_and,
    decide_eq_true_iff, UInt32.le_iff_toNat_le, UInt32.toNat_ofNat']

theorem toNat_size {n : ℕ} (h : n ≤ kMaxPayloadSize.toNat) : (UInt32.ofNat n).toNat = n := by
  have hkmax : kMaxPayloadSize.toNat = 1048576 := rfl
  rw [UInt32.toNat_ofNat']
  omega

variable {J : JavaLibrary}

/-- What the framework makes of a message. -/
def frameFor (J : JavaLibrary) (m : Sent) : Frame :=
  ⟨toInt m.wireOpcode, J.decodeUtf8 m.payload⟩

theorem isFrame_frameFor (m : Sent) : m.IsFrame (frameFor J m) := by
  refine ⟨rfl, fun text htext => ?_⟩
  rw [frameFor, htext]
  exact decodeUtf8_utf8 J text

theorem takes_packet (padding : UInt32) {m : Sent} (hfits : m.fits = true) :
    Takes (readFrame J) (m.packet padding) (frameFor J m) := by
  have hle : m.payload.length ≤ kMaxPayloadSize.toNat := of_decide_eq_true hfits
  have hsize := toNat_size hle
  have hok : m.header.wellFormed = true :=
    wellFormed_iff.mpr (by rwa [← UInt32.toNat_ofNat', hsize])
  rw [show readFrame J = _ from funext (readFrame_eq J)]
  exact takes_message hok hsize.symm

theorem packet_pos (m : UInt32 × Sent) : 0 < (m.2.packet m.1).length := by
  rw [Sent.packet, List.length_append, length_headerBytes, headerSize]
  omega

theorem refuses_packet (padding : UInt32) {m : Sent}
    (hlong : kMaxPayloadSize.toNat < m.payload.length % 2 ^ 32) :
    Refuses (readFrame J) (m.packet padding) := by
  have hbad : m.header.wellFormed = false := by
    rw [← Bool.not_eq_true]
    exact fun hok => Nat.not_le.mpr hlong (wellFormed_iff.mp hok)
  rw [show readFrame J = _ from funext (readFrame_eq J)]
  exact refuses_message hbad

theorem readFrame_short (padding : UInt32) {m : Sent}
    (hshort : m.payload.length % 2 ^ 32 ≤ kMaxPayloadSize.toNat) {i : Inlet} {rest : Bytes}
    (hleft : i.left = m.packet padding ++ rest) : (readFrame J i).1.isSome = true := by
  rw [readFrame_eq]
  refine some_of_short (wellFormed_iff.mpr hshort) ?_ hleft
  show (UInt32.ofNat m.payload.length).toNat ≤ _
  rw [UInt32.toNat_ofNat']
  exact Nat.mod_le _ _

/-- What an action is read from: the payload of the frame, for a message
whose header does not wrap. -/
theorem payload_readFrame {padding : UInt32} {m : Sent} (hlt : m.payload.length < 2 ^ 32)
    {i : Inlet} {rest : Bytes} (hleft : i.left = m.packet padding ++ rest) :
    (readFrame J i).1.map Frame.payload = Framework.readFrame J m.payload := by
  have hkmax : kMaxPayloadSize.toNat = 1024 * 1024 := rfl
  by_cases hle : m.payload.length ≤ 1024 * 1024
  · obtain ⟨i', hread, -⟩ := takes_packet (J := J) padding (decide_eq_true (hkmax ▸ hle)) i rest hleft
    rw [hread, Framework.readFrame, if_pos hle]
    rfl
  · have hnone := refuses_packet (J := J) padding (m := m) (by omega) i rest hleft
    rw [hnone, Framework.readFrame, if_neg hle]
    rfl

theorem readFrame_end {i : Inlet} (hleft : i.left = []) :
    (readFrame J i).1 = none ∧ (readFrame J i).2.left = [] := by
  rw [readFrame_eq]
  exact receiveWith_end hleft

/-- **From the daemon to the framework.** Up to the first message over the
limit everything arrives; that one ends the stream where its header says
that it is too long. -/
theorem framesAgree_iff {ms : List (UInt32 × Sent)} {writing reading : Pace} :
    FramesAgree J ms writing reading ↔ ∀ m ∈ ms.find? (fun m => !m.2.fits),
      kMaxPayloadSize.toNat < m.2.payload.length % 2 ^ 32 := by
  have hsent : (sendMessages { pace := writing } ms).sent =
      ms.flatMap fun m => m.2.packet m.1 := sent_sendMessages _ ms
  have hframes : ∀ as : List (UInt32 × Sent),
      List.Forall₂ (fun m f => m.2.IsFrame f) as (as.map fun m => frameFor J m.2) := fun as =>
    List.forall₂_map_right_iff.mpr (List.forall₂_same.mpr fun m _ => isFrame_frameFor m.2)
  cases hfind : ms.find? (fun m => !m.2.fits) with
  | none =>
    refine iff_of_true ?_ nofun
    have hfit : ∀ m ∈ ms, m.2.fits = true := by simpa using List.find?_eq_none.mp hfind
    obtain ⟨hall, hnil⟩ := receiveAll_all packet_pos
      (fun m hm => takes_packet (J := J) m.1 (hfit m hm)) (fun _ => readFrame_end)
      (i := { pace := reading, left := (sendMessages { pace := writing } ms).sent }) hsent
    refine ⟨?_, fun _ => hnil⟩
    rw [hall, List.takeWhile_eq_self_iff.mpr hfit]
    exact hframes ms
  | some m =>
    obtain ⟨hbad, before, later, rfl, hbefore⟩ := List.find?_eq_some_iff_append.mp hfind
    have hfit : ∀ m ∈ before, m.2.fits = true := by simpa using hbefore
    have hover : ¬m.2.fits = true := by simpa using hbad
    have htake : (before ++ m :: later).takeWhile (·.2.fits) = before := by
      rw [List.takeWhile_append_of_pos hfit,
        List.takeWhile_cons_of_neg (p := fun m : UInt32 × Sent => m.2.fits) hover, List.append_nil]
    have htakes : ∀ m ∈ before, Takes (readFrame J) (m.2.packet m.1) (frameFor J m.2) :=
      fun m hm => takes_packet m.1 (hfit m hm)
    constructor
    · -- the header says too little, and something comes of a message that is over the limit
      rintro ⟨hagree, -⟩ m' hm'
      obtain rfl : m = m' := Option.some.inj hm'
      by_contra hshort
      have hmore := length_lt_receiveAll packet_pos htakes
        (fun i rest => readFrame_short m.1 (Nat.not_lt.mp hshort))
        (i := { pace := reading, left := (sendMessages { pace := writing } _).sent }) hsent
      have hlen := hagree.length_eq
      rw [htake] at hlen
      omega
    · intro hlong
      refine ⟨?_, fun hall => absurd (hall m (by simp)) hover⟩
      rw [htake, receiveAll_refuses packet_pos htakes (refuses_packet m.1 (hlong m rfl)) hsent]
      exact hframes before

/-! ## From the framework to the daemon -/

theorem length_of_payloadBytes {payload : Option JavaString} {bytes : Bytes}
    (h : payloadBytes payload = some bytes) : bytes.length < 2 ^ 31 := by
  cases payload with
  | none =>
    rw [← Option.some.inj h, List.length_nil]
    omega
  | some s =>
    by_cases hlt : s.getBytes.length < 2 ^ 31
    · rw [payloadBytes, if_pos hlt] at h
      rw [← Option.some.inj h]
      exact hlt
    · rw [payloadBytes, if_neg hlt] at h
      cases h

theorem length_of_written {ms : List (UInt16 × Option JavaString)} {m : UInt16 × Bytes}
    (h : m ∈ written ms) : m.2.length < 2 ^ 31 := by
  obtain ⟨sent, -, hsome⟩ := List.mem_filterMap.mp h
  obtain ⟨bytes, hbytes, rfl⟩ := Option.map_eq_some_iff.mp hsome
  exact length_of_payloadBytes hbytes

/-- **From the framework to the daemon**, always: the length of an array is
what its header says. -/
theorem messagesAgree (ms : List (UInt16 × Option JavaString)) (writing reading : Pace) :
    MessagesAgree ms writing reading := by
  have hsent : (sendFrames { pace := writing } ms).sent =
      (written ms).flatMap fun m => headerBytes 0 (frameOf m) ++ m.2 := sent_sendFrames _ ms
  have hread : receiveMessage = receiveWith Prod.mk := funext receiveMessage_eq
  have hpos : ∀ m : UInt16 × Bytes, 0 < (headerBytes 0 (frameOf m) ++ m.2).length := fun m => by
    rw [List.length_append, length_headerBytes, headerSize]
    omega
  have htakes : ∀ m : UInt16 × Bytes, m.2.length ≤ kMaxPayloadSize.toNat →
      Takes receiveMessage (headerBytes 0 (frameOf m) ++ m.2) (frameOf m, m.2) := fun m hle => by
    have hsize := toNat_size hle
    rw [hread]
    exact takes_message (wellFormed_iff.mpr (by rwa [← UInt32.toNat_ofNat', hsize])) hsize.symm
  have hback : ∀ as : List (UInt16 × Bytes),
      (as.map fun m => (frameOf m, m.2)).map (fun m => (m.1.opcode, m.2)) = as := fun as => by
    rw [List.map_map]
    exact List.map_id _
  cases hfind : (written ms).find? (fun m => !decide (m.2.length ≤ kMaxPayloadSize.toNat)) with
  | none =>
    have hfit : ∀ m ∈ written ms, m.2.length ≤ kMaxPayloadSize.toNat := by
      simpa using List.find?_eq_none.mp hfind
    obtain ⟨hall, hnil⟩ := receiveAll_all hpos (fun m hm => htakes m (hfit m hm))
      (fun _ hleft => by rw [hread]; exact receiveWith_end hleft)
      (i := { pace := reading, left := (sendFrames { pace := writing } ms).sent }) hsent
    refine ⟨?_, fun _ => hnil⟩
    rw [hall, hback]
    exact (List.takeWhile_eq_self_iff.mpr (by simpa using hfit)).symm
  | some m =>
    obtain ⟨hbad, before, later, heq, hbefore⟩ := List.find?_eq_some_iff_append.mp hfind
    have hfit : ∀ m ∈ before, m.2.length ≤ kMaxPayloadSize.toNat := by simpa using hbefore
    have hover : ¬m.2.length ≤ kMaxPayloadSize.toNat := by simpa using hbad
    have hmem : m ∈ written ms := by rw [heq]; simp
    have hlt := length_of_written hmem
    have hrefuses : Refuses receiveMessage (headerBytes 0 (frameOf m) ++ m.2) := by
      rw [hread]
      refine refuses_message (Bool.eq_false_iff.mpr fun hok => hover ?_)
      have hle := wellFormed_iff.mp hok
      rwa [Nat.mod_eq_of_lt (by omega)] at hle
    rw [heq] at hsent
    refine ⟨?_, fun hall => absurd (hall m hmem) hover⟩
    rw [receiveAll_refuses hpos (fun m hm => htakes m (hfit m hm)) hrefuses hsent, hback, heq,
      List.takeWhile_append_of_pos (by simpa using hfit),
      List.takeWhile_cons_of_neg (by simpa using hover), List.append_nil]

/-- **When the two speak of the same frames.** -/
theorem streams_agree_iff (J : JavaLibrary) (frames : List (UInt16 × Option JavaString))
    (messages : List (UInt32 × Sent)) (writing reading writing' reading' : Pace) :
    MessagesAgree frames writing reading ∧ FramesAgree J messages writing' reading' ↔
      ∀ m ∈ messages.find? (fun m => !m.2.fits),
        kMaxPayloadSize.toNat < m.2.payload.length % 2 ^ 32 := by
  rw [framesAgree_iff]
  exact and_iff_right (messagesAgree frames writing reading)

/-- A byte with each call. -/
def byteByByte : Pace where
  cut := fun _ => 1
  pos := fun _ => Nat.one_pos

/-- A header keeps nothing of a length of four gigabytes. -/
theorem not_framesAgree {m : Sent} {padding : UInt32} {writing reading : Pace}
    (hlen : m.payload.length = 2 ^ 32) : ¬FramesAgree J [(padding, m)] writing reading := by
  have hfits : m.fits = false := by
    rw [Sent.fits, hlen]
    decide
  intro hagree
  have hlong := framesAgree_iff.mp hagree (padding, m) (by simp [hfits])
  rw [hlen, Nat.mod_self] at hlong
  exact Nat.not_lt_zero _ hlong

/-- **A payload of four gigabytes.** Its header says that there is none, so
it is taken for the frames that follow. -/
theorem long_payload_misread :
    ¬FramesAgree asciiLibrary [(0, ⟨2, 1, List.replicate (2 ^ 32) 0, true⟩)] byteByByte
      byteByByte :=
  not_framesAgree List.length_replicate

end Socket

end Framework

end Muplar
