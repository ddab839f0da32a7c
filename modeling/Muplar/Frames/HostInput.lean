import Muplar.Common.Records
import Muplar.Frames.Transport
/-!
# Frames — the input of the host window

An embedded host window gets its input over the socket on which it sends
its frames, in packets of 32 bytes. Each call reads what has come, a chunk
at a time, and cuts the packets off a buffer afterwards; what is not handed
out yet is kept for the next call to take the events.

Where the reading comes to the end of the stream, the function returns
before anything is cut off the buffer, and a window without a connection
hands out nothing. So the last packets are lost if they have come together
with the end, or if it is not the call that takes events which sees it.
Packets are delivered exactly once where neither happens
(`delivered_iff`).
-/

namespace Muplar

namespace Frames

namespace HostInput

open Machine

/-! ## Packets -/

/-- `HostInputEvent`; the two floats are their bits, which nothing computes
with. -/
structure HostInputEvent where
  type : Int32 := 0
  action : Int32 := 0
  source : Int32 := 0
  deviceId : Int32 := 0
  keyCode : Int32 := 0
  x : UInt32 := 0
  y : UInt32 := 0
  deriving DecidableEq

/-- `HostInputPacket`. -/
structure HostInputPacket extends HostInputEvent where
  magic : UInt32 := 0
  deriving DecidableEq

/-- `MHI1`. -/
def hostInputMagic : UInt32 := 0x4d484931

/-- `sizeof(HostInputPacket)`. -/
def packetSize : ℕ := 32

namespace HostInputPacket

/-- The fields one after the other. -/
def fields (p : HostInputPacket) : List Bytes :=
  [encodeLe 4 p.magic.toNat, encodeLe 4 p.type.toUInt32.toNat,
    encodeLe 4 p.action.toUInt32.toNat, encodeLe 4 p.source.toUInt32.toNat,
    encodeLe 4 p.deviceId.toUInt32.toNat, encodeLe 4 p.keyCode.toUInt32.toNat,
    encodeLe 4 p.x.toNat, encodeLe 4 p.y.toNat]

/-- The packet as it stands in memory. -/
def encode (p : HostInputPacket) : Bytes :=
  p.fields.flatten

/-- A packet read from memory. -/
def decode (data : Bytes) : HostInputPacket where
  magic := UInt32.ofNat (le (slice data 0 4))
  type := (UInt32.ofNat (le (slice data 4 4))).toInt32
  action := (UInt32.ofNat (le (slice data 8 4))).toInt32
  source := (UInt32.ofNat (le (slice data 12 4))).toInt32
  deviceId := (UInt32.ofNat (le (slice data 16 4))).toInt32
  keyCode := (UInt32.ofNat (le (slice data 20 4))).toInt32
  x := UInt32.ofNat (le (slice data 24 4))
  y := UInt32.ofNat (le (slice data 28 4))

/-- The event of a packet, if its magic is right. -/
def event (p : HostInputPacket) : Option HostInputEvent :=
  if p.magic ≠ hostInputMagic then none else some p.toHostInputEvent

@[simp] theorem length_encode (p : HostInputPacket) : p.encode.length = packetSize := by
  simp [encode, fields, packetSize]

theorem slice_encode (p : HostInputPacket) (i off : ℕ) {field : Bytes}
    (hfield : p.fields[i]? = some field) (hoff : off = (p.fields.take i).flatten.length)
    (hlen : 4 = field.length) : slice p.encode off 4 = field := by
  have hslice : slice ([] ++ (p.fields.flatten ++ [])) off 4 = field :=
    slice_record hfield (hoff.trans (Nat.zero_add _).symm) rfl hlen
  rwa [List.nil_append, List.append_nil] at hslice

theorem ofNat_le_encodeLe (x : UInt32) : UInt32.ofNat (le (encodeLe 4 x.toNat)) = x := by
  rw [le_encodeLe x.toNat_lt, UInt32.ofNat_toNat]

/-- A packet is read back. -/
@[simp] theorem decode_encode (p : HostInputPacket) : decode p.encode = p := by
  have hmagic := p.slice_encode 0 0 rfl (by simp [fields]) (by simp)
  have htype := p.slice_encode 1 4 rfl (by simp [fields]) (by simp)
  have haction := p.slice_encode 2 8 rfl (by simp [fields]) (by simp)
  have hsource := p.slice_encode 3 12 rfl (by simp [fields]) (by simp)
  have hdevice := p.slice_encode 4 16 rfl (by simp [fields]) (by simp)
  have hkey := p.slice_encode 5 20 rfl (by simp [fields]) (by simp)
  have hx := p.slice_encode 6 24 rfl (by simp [fields]) (by simp)
  have hy := p.slice_encode 7 28 rfl (by simp [fields]) (by simp)
  rw [decode, hmagic, htype, haction, hsource, hdevice, hkey, hx, hy]
  simp only [ofNat_le_encodeLe, Int32.toInt32_toUInt32]

/-- A packet of the right magic is an event. -/
theorem event_of_magic {p : HostInputPacket} (h : p.magic = hostInputMagic) :
    p.event = some p.toHostInputEvent :=
  if_neg fun hne => hne h

end HostInputPacket

/-! ## The window -/

/-- `HostWindow::Impl` of an embedded window. `isOpen` stands for
`frame_fd >= 0`. -/
structure HostWindow where
  isOpen : Bool := true
  inputBuffer : Bytes := []
  pendingInput : List HostInputEvent := []
  softwareFrame : FileStat := {}
  deriving DecidableEq

/-- What one `recv` puts into the buffer of 256 bytes. -/
structure Chunk where
  bytes : Bytes
  nonempty : bytes ≠ []
  length_le : bytes.length ≤ 256
  deriving DecidableEq

/-- The `recv` that gives no bytes. -/
inductive Finish
  | wouldBlock
  | closed
  | failed
  deriving DecidableEq

/-- What `recv` gives in one call: chunks, and in the end none. -/
structure Reads where
  chunks : List Chunk := []
  finish : Finish := .wouldBlock
  deriving DecidableEq

/-- The bytes of the chunks. -/
def Reads.bytes (r : Reads) : Bytes :=
  r.chunks.flatMap Chunk.bytes

/-- What a call to pump the events finds of the software frame: the file,
where there is one that can be opened, and whether the socket takes the
frame. -/
structure Poll where
  file : Option (FileStat × Bytes) := none
  writes : Bool := true

namespace HostWindow

/-- The loop that cuts packets off the buffer. -/
def parseInput (buffer : Bytes) (pending : List HostInputEvent) :
    Bytes × List HostInputEvent :=
  if packetSize ≤ buffer.length then
    let packet := HostInputPacket.decode (buffer.take packetSize)
    parseInput (buffer.drop packetSize) (pending ++ packet.event.toList)
  else (buffer, pending)
termination_by buffer.length
decreasing_by
  rw [List.length_drop]
  simp only [packetSize] at *
  omega

/-- `drain_embedded_input`. At the end of the stream it returns before it
looks at the buffer. -/
def drainEmbeddedInput (w : HostWindow) (r : Reads) : HostWindow :=
  if w.isOpen then
    let buffer := w.inputBuffer ++ r.bytes
    match r.finish with
    | .wouldBlock =>
      let (inputBuffer, pendingInput) := parseInput buffer w.pendingInput
      { w with inputBuffer, pendingInput }
    | _ => { w with isOpen := false, inputBuffer := buffer }
  else w

/-- The frame that is due. -/
def dueFrame (w : HostWindow) (p : Poll) : Option (FileStat × Frame) :=
  p.file.bind fun (stat, content) =>
    (pollSoftwareFrame w.softwareFrame stat content).map fun frame => (stat, frame)

/-- `poll_software_frame`. Where the frame cannot be written, the
connection is closed. -/
def pollSoftware (w : HostWindow) (p : Poll) : HostWindow :=
  if w.isOpen then
    match w.dueFrame p with
    | none => w
    | some (stat, _) =>
      if p.writes then { w with softwareFrame := stat } else { w with isOpen := false }
  else w

/-- `pump_events`. -/
def pumpEvents (w : HostWindow) (r : Reads) (p : Poll) : HostWindow :=
  if w.isOpen then (w.drainEmbeddedInput r).pollSoftware p else w

/-- `take_input_events`: what it returns, and the window afterwards. -/
def takeInputEvents (w : HostWindow) (r : Reads) : List HostInputEvent × HostWindow :=
  if w.isOpen then
    let w := w.drainEmbeddedInput r
    (w.pendingInput, { w with pendingInput := [] })
  else ([], w)

end HostWindow

/-! ## Sessions -/

/-- A window, what has been read of its input and what `take_input_events`
has returned. -/
structure Session extends HostWindow where
  received : Bytes := []
  returned : List HostInputEvent := []
  deriving DecidableEq

/-- A call. -/
inductive Call
  | take (reads : Reads)
  | pump (reads : Reads) (poll : Poll)

namespace Call

/-- What it would read. -/
def reads : Call → Reads
  | take reads => reads
  | pump reads _ => reads

/-- Whether it takes the events. -/
def takes : Call → Bool
  | take _ => true
  | pump .. => false

/-- Whether there is a frame to write that the socket does not take. -/
def losesFrame (w : HostWindow) : Call → Bool
  | take _ => false
  | pump _ poll => (w.dueFrame poll).isSome && !poll.writes

end Call

namespace Session

variable (s : Session) (c : Call)

/-- What has been read after a call: nothing is read from a socket that is
closed. -/
def receivedBy : Bytes :=
  if s.isOpen then s.received ++ c.reads.bytes else s.received

/-- One call. -/
def step : Session :=
  match c with
  | .take reads =>
    let (events, window) := s.toHostWindow.takeInputEvents reads
    { toHostWindow := window
      received := s.receivedBy c
      returned := s.returned ++ events }
  | .pump reads poll =>
    { toHostWindow := s.toHostWindow.pumpEvents reads poll
      received := s.receivedBy c
      returned := s.returned }

/-- The packets of a stream that have been received in full. -/
def complete (packets : List HostInputPacket) : List HostInputPacket :=
  packets.take (s.received.length / packetSize)

/-- **Every packet exactly once**: what has been returned, with what a call
that reads nothing would return, are the events of the packets that have
been received. -/
def Delivered (packets : List HostInputPacket) : Prop :=
  s.returned ++ (s.toHostWindow.takeInputEvents {}).1 =
    (s.complete packets).map HostInputPacket.toHostInputEvent

/-- What is read are the packets of a stream, in order. -/
def Follows (packets : List HostInputPacket) : Prop :=
  s.receivedBy c <+: packets.flatMap HostInputPacket.encode

instance decidableFollows (packets : List HostInputPacket) : Decidable (s.Follows c packets) :=
  inferInstanceAs (Decidable (s.receivedBy c <+: packets.flatMap HostInputPacket.encode))

instance decidableDelivered (packets : List HostInputPacket) : Decidable (s.Delivered packets) :=
  inferInstanceAs (Decidable (s.returned ++ (s.toHostWindow.takeInputEvents {}).1 =
    (s.complete packets).map HostInputPacket.toHostInputEvent))

/-- **What ends the connection**: the end of the stream, or a frame that
cannot be written. -/
def Closes : Prop :=
  c.reads.finish ≠ .wouldBlock ∨ c.losesFrame s.toHostWindow = true

/-- **No packet comes too late**: a call that ends the connection completes
none, and it takes the events, or none are waiting. -/
def Orderly : Prop :=
  s.isOpen = true → s.Closes c →
    s.inputBuffer.length + c.reads.bytes.length < packetSize ∧
      (c.takes = false → s.pendingInput = [])

end Session

/-! ## What the calls do -/

section

variable {w : HostWindow} {r : Reads} {buffer : Bytes} {pending : List HostInputEvent}

/-- The events of the packets that are there in full. -/
def events (buffer : Bytes) : List HostInputEvent :=
  (Records.whole packetSize buffer).flatMap fun data => (HostInputPacket.decode data).event.toList

theorem packetSize_pos : 0 < packetSize := by decide

/-- The loop cuts off every packet that is there. -/
theorem parseInput_eq : HostWindow.parseInput buffer pending =
    (Records.rest packetSize buffer, pending ++ events buffer) := by
  induction buffer, pending using HostWindow.parseInput.induct with
  | case1 buffer pending h packet ih =>
    rw [HostWindow.parseInput, if_pos h]
    dsimp only
    rw [ih, events, events, Records.whole_of_le packetSize_pos h,
      Records.rest_of_le packetSize_pos h, List.flatMap_cons, List.append_assoc]
  | case2 buffer pending h =>
    have hlt : buffer.length < packetSize := by omega
    rw [HostWindow.parseInput, if_neg h, events, Records.whole_of_lt hlt,
      Records.rest_of_lt hlt, List.flatMap_nil, List.append_nil]

theorem events_append (before after : Bytes) : events (before ++ after) =
    events before ++ events (Records.rest packetSize before ++ after) := by
  rw [events, Records.whole_append packetSize_pos, List.flatMap_append, events, events]

theorem events_of_lt (h : buffer.length < packetSize) : events buffer = [] := by
  rw [events, Records.whole_of_lt h, List.flatMap_nil]

theorem drain_of_wouldBlock (hopen : w.isOpen = true) (h : r.finish = .wouldBlock) :
    w.drainEmbeddedInput r =
      { w with
        inputBuffer := Records.rest packetSize (w.inputBuffer ++ r.bytes)
        pendingInput := w.pendingInput ++ events (w.inputBuffer ++ r.bytes) } := by
  rw [HostWindow.drainEmbeddedInput, if_pos hopen, h]
  dsimp only
  rw [parseInput_eq]

theorem drain_of_end (hopen : w.isOpen = true) (h : r.finish ≠ .wouldBlock) :
    w.drainEmbeddedInput r =
      { w with isOpen := false, inputBuffer := w.inputBuffer ++ r.bytes } := by
  rw [HostWindow.drainEmbeddedInput, if_pos hopen]
  cases hf : r.finish with
  | wouldBlock => exact absurd hf h
  | closed => rfl
  | failed => rfl

theorem dueFrame_drain {p : Poll} : (w.drainEmbeddedInput r).dueFrame p = w.dueFrame p := by
  have hsame : (w.drainEmbeddedInput r).softwareFrame = w.softwareFrame := by
    rw [HostWindow.drainEmbeddedInput]
    split_ifs
    · cases r.finish <;> rfl
    · rfl
  rw [HostWindow.dueFrame, HostWindow.dueFrame, hsame]

theorem poll_of_writes {p : Poll} (hopen : w.isOpen = true)
    (h : ((w.dueFrame p).isSome && !p.writes) = false) :
    ∃ seen, w.pollSoftware p = { w with softwareFrame := seen } := by
  rw [HostWindow.pollSoftware, if_pos hopen]
  cases hdue : w.dueFrame p with
  | none => exact ⟨w.softwareFrame, rfl⟩
  | some due =>
    have hwrites : p.writes = true := by simpa [hdue] using h
    exact ⟨due.1, if_pos hwrites⟩

theorem poll_of_loses {p : Poll} (hopen : w.isOpen = true)
    (h : ((w.dueFrame p).isSome && !p.writes) = true) :
    w.pollSoftware p = { w with isOpen := false } := by
  rw [Bool.and_eq_true, Bool.not_eq_true'] at h
  obtain ⟨due, hdue⟩ := Option.isSome_iff_exists.mp h.1
  rw [HostWindow.pollSoftware, if_pos hopen, hdue]
  exact if_neg (by rw [h.2]; decide)

theorem poll_of_closed {p : Poll} (hclosed : w.isOpen = false) : w.pollSoftware p = w := by
  rw [HostWindow.pollSoftware, if_neg (by rw [hclosed]; decide)]

end

section

variable {s : Session} {c : Call}

theorem step_of_closed (hclosed : s.isOpen = false) : s.step c = s := by
  have hno : ¬s.isOpen = true := by rw [hclosed]; decide
  cases c with
  | take r =>
    rw [Session.step, HostWindow.takeInputEvents, if_neg hno, Session.receivedBy, if_neg hno]
    dsimp only
    rw [List.append_nil]
  | pump r p =>
    rw [Session.step, HostWindow.pumpEvents, if_neg hno, Session.receivedBy, if_neg hno]

variable (hopen : s.isOpen = true)
include hopen

theorem received_step : (s.step c).received = s.received ++ c.reads.bytes := by
  cases c with
  | take r => exact if_pos hopen
  | pump r p => exact if_pos hopen

/-- **A call that keeps the connection** cuts every packet off the buffer
that is there, and drops none. -/
theorem step_of_keeps (h : ¬s.Closes c) : (s.step c).isOpen = true ∧
    (s.step c).inputBuffer = Records.rest packetSize (s.inputBuffer ++ c.reads.bytes) ∧
    (s.step c).returned ++ (s.step c).pendingInput =
      s.returned ++ s.pendingInput ++ events (s.inputBuffer ++ c.reads.bytes) := by
  rw [Session.Closes, not_or, not_not, Bool.not_eq_true] at h
  obtain ⟨hfinish, hframe⟩ := h
  have hdrain := drain_of_wouldBlock hopen hfinish
  cases c with
  | take r =>
    have hstep : s.toHostWindow.takeInputEvents r = _ := if_pos hopen
    simp only [Call.reads] at hdrain
    rw [Session.step]
    dsimp only
    rw [hstep, hdrain]
    exact ⟨hopen, rfl, by rw [List.append_nil, List.append_assoc]; rfl⟩
  | pump r p =>
    have hstep : s.toHostWindow.pumpEvents r p = _ := if_pos hopen
    have hopen' : (s.drainEmbeddedInput r).isOpen = true := by
      rw [show s.drainEmbeddedInput r = _ from hdrain]
      exact hopen
    obtain ⟨seen, hpoll⟩ := poll_of_writes hopen' (by rw [dueFrame_drain]; exact hframe)
    simp only [Call.reads] at hdrain
    rw [Session.step]
    dsimp only
    rw [hstep, hpoll, hdrain]
    exact ⟨hopen, rfl, by rw [← List.append_assoc]; rfl⟩

/-- **A call that ends the connection** hands out what was waiting, if it
takes the events, and nothing of what it has read. -/
theorem step_of_closes (h : s.Closes c) : (s.step c).isOpen = false ∧
    (s.step c).returned = s.returned ++ if c.takes then s.pendingInput else [] := by
  cases c with
  | take r =>
    have hfinish : r.finish ≠ .wouldBlock := h.elim id nofun
    have hstep : s.toHostWindow.takeInputEvents r = _ := if_pos hopen
    rw [Session.step]
    dsimp only
    rw [hstep, drain_of_end hopen hfinish]
    exact ⟨rfl, rfl⟩
  | pump r p =>
    have hstep : s.toHostWindow.pumpEvents r p = _ := if_pos hopen
    refine ⟨?_, (List.append_nil _).symm⟩
    rw [Session.step]
    dsimp only
    rw [hstep]
    by_cases hfinish : r.finish = .wouldBlock
    · have hframe : Call.losesFrame s.toHostWindow (.pump r p) = true :=
        h.resolve_left fun hne => hne hfinish
      have hopen' : (s.drainEmbeddedInput r).isOpen = true := by
        rw [drain_of_wouldBlock hopen hfinish]
        exact hopen
      rw [poll_of_loses hopen' (by rw [dueFrame_drain]; exact hframe)]
    · rw [drain_of_end hopen hfinish, poll_of_closed rfl]

end

/-! ## What every run keeps -/

variable {packets : List HostInputPacket} {s : Session} {c : Call}

/-- **The invariant.** While the connection is open, the buffer holds what
is behind the last packet that was received in full, and the events of
those before it have been returned or are waiting. -/
structure Kept (packets : List HostInputPacket) (s : Session) : Prop where
  received : s.received <+: packets.flatMap HostInputPacket.encode
  buffer : s.isOpen = true → s.inputBuffer = Records.rest packetSize s.received
  events : s.isOpen = true → s.returned ++ s.pendingInput =
    (s.complete packets).map HostInputPacket.toHostInputEvent

/-- As many packets as the bytes have room for. -/
theorem length_complete (hr : s.received <+: packets.flatMap HostInputPacket.encode) :
    (s.complete packets).length = s.received.length / packetSize := by
  have hle := hr.length_le
  have hall : (packets.flatMap HostInputPacket.encode).length = packets.length * packetSize := by
    simp [List.length_flatMap]
  rw [hall] at hle
  rw [Session.complete, List.length_take, Nat.min_eq_left]
  exact Nat.div_le_of_le_mul (by rwa [Nat.mul_comm])

/-- **An open connection has lost nothing.** -/
theorem Kept.delivered (hk : Kept packets s) (hopen : s.isOpen = true) : s.Delivered packets := by
  have hlt : (s.inputBuffer ++ Reads.bytes {}).length < packetSize := by
    rw [hk.buffer hopen, Reads.bytes, List.flatMap_nil, List.append_nil,
      Records.length_rest packetSize_pos]
    exact Nat.mod_lt _ packetSize_pos
  have hstep : s.toHostWindow.takeInputEvents {} = _ := if_pos hopen
  rw [Session.Delivered, hstep, drain_of_wouldBlock hopen rfl, events_of_lt hlt, List.append_nil]
  exact hk.events hopen

section

variable (hmagic : ∀ p ∈ packets, p.magic = hostInputMagic)
include hmagic

/-- What is cut off the bytes of a stream are its events. -/
theorem events_of_prefix (hr : s.received <+: packets.flatMap HostInputPacket.encode) :
    events s.received = (s.complete packets).map HostInputPacket.toHostInputEvent := by
  have hflat : packets.flatMap HostInputPacket.encode =
      (packets.map HostInputPacket.encode).flatten := rfl
  have hwhole : Records.whole packetSize s.received =
      (s.complete packets).map HostInputPacket.encode := by
    rw [Session.complete, List.map_take]
    exact Records.whole_of_prefix packetSize_pos (by simp) (hflat ▸ hr)
  rw [events, hwhole, List.flatMap_map]
  have hsub : ∀ p ∈ s.complete packets, p.magic = hostInputMagic := fun p hp =>
    hmagic p (List.mem_of_mem_take hp)
  generalize s.complete packets = known at hsub
  induction known with
  | nil => rfl
  | cons p known ih =>
    rw [List.forall_mem_cons] at hsub
    rw [List.flatMap_cons, ih hsub.2, HostInputPacket.decode_encode,
      HostInputPacket.event_of_magic hsub.1]
    rfl

/-- **Every call keeps the invariant.** -/
theorem Kept.step (hk : Kept packets s) (hf : s.Follows c packets) : Kept packets (s.step c) := by
  cases hopen : s.isOpen with
  | false => rwa [step_of_closed hopen]
  | true =>
    have hreceived := received_step (c := c) hopen
    have hstarts : (s.step c).received <+: packets.flatMap HostInputPacket.encode := by
      rw [Session.Follows, Session.receivedBy, if_pos hopen] at hf
      rwa [hreceived]
    refine ⟨hstarts, fun hopen' => ?_, fun hopen' => ?_⟩
    all_goals
      have hkeeps : ¬s.Closes c := fun h => by
        rw [(step_of_closes hopen h).1] at hopen'
        cases hopen'
      obtain ⟨-, hbuffer, hevents⟩ := step_of_keeps hopen hkeeps
    · rw [hbuffer, hk.buffer hopen, hreceived, ← Records.rest_append packetSize_pos]
    · rw [hevents, hk.events hopen, hk.buffer hopen, ← events_of_prefix hmagic hk.received,
        ← events_append, ← hreceived, events_of_prefix hmagic hstarts]

/-- **The call that ends the connection** loses nothing exactly where it is
orderly. -/
theorem Kept.delivered_step_iff (hk : Kept packets s) (hf : s.Follows c packets)
    (hopen : s.isOpen = true) (hcloses : s.Closes c) :
    (s.step c).Delivered packets ↔ s.Orderly c := by
  obtain ⟨hclosed, hreturned⟩ := step_of_closes hopen hcloses
  have hk' := hk.step hmagic hf
  have hlength := length_complete hk.received
  have hlength' := length_complete hk'.received
  have hbuffer : s.inputBuffer.length = s.received.length % packetSize := by
    rw [hk.buffer hopen, Records.length_rest packetSize_pos]
  have hsame : (s.step c).received.length / packetSize = s.received.length / packetSize ↔
      s.inputBuffer.length + c.reads.bytes.length < packetSize := by
    rw [hbuffer, received_step hopen, List.length_append]
    simp only [packetSize]
    omega
  have hidle : (s.step c).toHostWindow.takeInputEvents {} = _ := if_neg (by rw [hclosed]; decide)
  have hevents := congrArg List.length (hk.events hopen)
  rw [List.length_append, List.length_map, hlength] at hevents
  rw [Session.Delivered, hidle, List.append_nil, hreturned, Session.Orderly]
  constructor
  · intro hall _ _
    -- the events that have been returned are no more than those before the call
    have hcount := congrArg List.length hall
    rw [List.length_append, List.length_map, hlength'] at hcount
    have hmore : s.received.length / packetSize ≤ (s.step c).received.length / packetSize := by
      rw [received_step hopen, List.length_append]
      exact Nat.div_le_div_right (Nat.le_add_right _ _)
    cases htakes : c.takes with
    | true =>
      rw [htakes, if_pos rfl] at hcount
      exact ⟨hsame.mp (by omega), nofun⟩
    | false =>
      rw [htakes, if_neg (by decide), List.length_nil] at hcount
      exact ⟨hsame.mp (by omega), fun _ => List.length_eq_zero_iff.mp (by omega)⟩
  · intro hok
    obtain ⟨hlt, hwaiting⟩ := hok hopen hcloses
    have hcomplete : (s.step c).complete packets = s.complete packets := by
      rw [Session.complete, hsame.mpr hlt, Session.complete]
    rw [hcomplete, ← hk.events hopen]
    cases htakes : c.takes with
    | true => rfl
    | false => rw [hwaiting htakes]; rfl

/-- One call delivers what it receives exactly where it is orderly. -/
theorem Kept.step_iff (hk : Kept packets s) (hd : s.Delivered packets)
    (hf : s.Follows c packets) : (s.step c).Delivered packets ↔ s.Orderly c := by
  cases hopen : s.isOpen with
  | false =>
    rw [step_of_closed hopen, Session.Orderly, hopen]
    exact iff_of_true hd nofun
  | true =>
    by_cases hcloses : s.Closes c
    · exact hk.delivered_step_iff hmagic hf hopen hcloses
    · have hopen' := (step_of_keeps hopen hcloses).1
      exact iff_of_true ((hk.step hmagic hf).delivered hopen') fun _ h => absurd h hcloses

end

/-- Nothing has been received yet. -/
theorem kept_init (packets : List HostInputPacket) : Kept packets {} where
  received := List.nil_prefix
  buffer _ := (Records.rest_of_lt packetSize_pos).symm
  events _ := rfl

/-- **Every run** on the packets of a stream: all of them are delivered
exactly once, however they are cut and wherever the stream ends, exactly
where the call that ends the connection is orderly. -/
theorem delivered_iff (packets : List HostInputPacket)
    (hmagic : ∀ p ∈ packets, p.magic = hostInputMagic) (calls : List Call)
    (hfollows : Meets Session.step (fun s c => s.Follows c packets) {} calls) :
    Throughout Session.step (fun s => s.Delivered packets) {} calls ↔
      Meets Session.step Session.Orderly {} calls :=
  throughout_iff_meets (fun _ _ hk hf => hk.step hmagic hf)
    (fun _ _ hk hd hf => hk.step_iff hmagic hd hf) (kept_init packets)
    ((kept_init packets).delivered rfl) hfollows

/-- A touch, and its packet in two chunks. -/
def touch : HostInputPacket where
  magic := hostInputMagic
  type := 1
  source := 0x1002
  x := 0x42c80000
  y := 0x43480000

def touchHead : Chunk :=
  ⟨touch.encode.take 20, by decide, by decide⟩

def touchTail : Chunk :=
  ⟨touch.encode.drop 20, by decide, by decide⟩

/-- The chunks come in two calls, and the end of the stream in a third. -/
def touchCalls : List Call :=
  [.take ⟨[touchHead], .wouldBlock⟩, .pump ⟨[touchTail], .wouldBlock⟩ {}, .take ⟨[], .closed⟩]

theorem delivered_iff_touch :
    Throughout Session.step (fun s => s.Delivered [touch]) {} touchCalls ↔
      Meets Session.step Session.Orderly {} touchCalls :=
  delivered_iff [touch] (by decide) touchCalls ⟨by decide, by decide, by decide, trivial⟩

/-- **A packet that comes together with the end of the stream** is lost. -/
theorem last_packet_lost :
    Meets Session.step (fun s c => s.Follows c [touch]) {}
        [.take ⟨[touchHead, touchTail], .closed⟩] ∧
      (run Session.step {} [.take ⟨[touchHead, touchTail], .closed⟩]).received = touch.encode ∧
      (run Session.step {} [.take ⟨[touchHead, touchTail], .closed⟩]).returned = [] ∧
      ¬Throughout Session.step (fun s => s.Delivered [touch]) {}
        [.take ⟨[touchHead, touchTail], .closed⟩] := by
  refine ⟨⟨by decide, trivial⟩, by decide, by decide, fun h => ?_⟩
  have hlost := h.last
  revert hlost
  decide

end HostInput

end Frames

end Muplar
