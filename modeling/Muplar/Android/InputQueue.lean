import Mathlib.Tactic.Common
import Muplar.Common.Run
/-!
# The Android runtime — the input queue

Input from the host's window is stamped with a handle, put into a deque
and offered to the guest through `AInputQueue_getEvent`; the guest reads
an event's fields through its handle until it calls `finishEvent`. An
index into the deque marks what has been offered.

The order of events is kept in every run: what was offered, followed by
what is still to be, is what was queued. The handles are not: `install`
puts two events into the deque with the handles the counter of
`collect_host_input_events` starts with, so the first input from the host
gets a handle that is taken.
-/

namespace Muplar

namespace Android

/-! ## State -/

/-- Coordinates are single-precision numbers, kept here as their bits:
they are copied and never computed with. -/
structure HostInputEvent where
  type : Int32
  action : Int32
  source : Int32
  deviceId : Int32
  keyCode : Int32
  x : UInt32
  y : UInt32
  deriving DecidableEq

structure InputEventState extends HostInputEvent where
  handle : UInt64
  offered : Bool
  finished : Bool
  deriving DecidableEq

/-- An event as the guest knows it: its handle and its fields. -/
def InputEventState.stamped (e : InputEventState) : UInt64 × HostInputEvent :=
  (e.handle, e.toHostInputEvent)

def guestInputQueue : UInt64 := 0xA11E0001
def guestInputEventBase : UInt64 := 0xA11E1000

structure InputQueue where
  attached : Bool
  inputEvents : List InputEventState
  nextInputEvent : ℕ
  nextInputEventHandle : UInt64
  deriving DecidableEq

/-- The touch `install` has ready: down, then up, at (160, 120). -/
def installedTouch (action : Int32) : HostInputEvent where
  type := 2
  action := action
  source := 0x1002
  deviceId := 1
  keyCode := 0
  x := 0x43200000
  y := 0x42F00000

/-- The part of `install` for the input queue. -/
def InputQueue.install : InputQueue where
  attached := false
  inputEvents :=
    [⟨installedTouch 0, guestInputEventBase + 0x00, false, false⟩,
     ⟨installedTouch 1, guestInputEventBase + 0x100, false, false⟩]
  nextInputEvent := 0
  nextInputEventHandle := 0

/-! ## Operations -/

def InputQueue.push (q : InputQueue) (e : HostInputEvent) : InputQueue :=
  { q with
    inputEvents := q.inputEvents ++
      [⟨e, guestInputEventBase + q.nextInputEventHandle * 0x100, false, false⟩]
    nextInputEventHandle := q.nextInputEventHandle + 1 }

/-- `collect_host_input_events`. There may be no window; `host` is what
`take_input_events` returns if there is. -/
def InputQueue.collectHostInputEvents (q : InputQueue) (host : Option (List HostInputEvent)) :
    InputQueue :=
  match host with
  | none => q
  | some events => if !q.attached || events.isEmpty then q else events.foldl InputQueue.push q

/-- The first event with the handle. -/
def InputQueue.findInputEvent (q : InputQueue) (handle : UInt64) : Option InputEventState :=
  q.inputEvents.find? fun e => e.handle = handle

def InputQueue.attachLooper (q : InputQueue) (queue : UInt64) : InputQueue :=
  if queue ≠ guestInputQueue then q else { q with attached := true }

def InputQueue.detachLooper (q : InputQueue) (queue : UInt64) : InputQueue :=
  if queue = guestInputQueue then { q with attached := false } else q

/-- `AInputQueue_getEvent`, and the event it offers if any. -/
def InputQueue.getEvent (q : InputQueue) (queue out : UInt64)
    (host : Option (List HostInputEvent)) : InputQueue × Option InputEventState :=
  if queue ≠ guestInputQueue || out = 0 then (q, none)
  else
    let q := q.collectHostInputEvents host
    match q.inputEvents[q.nextInputEvent]? with
    | none => (q, none)
    | some e =>
      ({ q with
          inputEvents := q.inputEvents.set q.nextInputEvent { e with offered := true }
          nextInputEvent := q.nextInputEvent + 1 }, some e)

/-- The first event with the handle is marked. -/
def finishFirst (handle : UInt64) : List InputEventState → List InputEventState
  | [] => []
  | e :: es =>
    if e.handle = handle then { e with finished := true } :: es else e :: finishFirst handle es

/-- A deque that got long is emptied once everything was offered. -/
def InputQueue.trim (q : InputQueue) : InputQueue :=
  if q.inputEvents.length ≤ q.nextInputEvent && 100 < q.inputEvents.length then
    { q with
      inputEvents := []
      nextInputEvent := 0 }
  else q

/-- `AInputQueue_finishEvent`. -/
def InputQueue.finishEvent (q : InputQueue) (queue handle : UInt64)
    (host : Option (List HostInputEvent)) : InputQueue :=
  if queue ≠ guestInputQueue then q
  else
    let q := ({ q with inputEvents := finishFirst handle q.inputEvents } : InputQueue).trim
    if q.attached then q.collectHostInputEvents host else q

/-! ## Getters -/

/-- The getters that read the event. -/
inductive Getter
  | inputType | inputDeviceId | inputSource
  | motionAction | motionX | motionY | motionRawX | motionRawY | motionPointerCount
  | motionHistoricalX | motionHistoricalY | motionHistoricalRawX | motionHistoricalRawY
  | motionAxisValue (axis : Int32)
  | keyAction | keyKeyCode
  deriving DecidableEq

/-- `static_cast<uint64_t>(static_cast<int64_t>(value))`. -/
def signExtend (value : Int32) : UInt64 :=
  value.toInt64.toUInt64

def oneFloat : UInt64 := 0x3F800000

/-- What a getter returns for an event. -/
def Getter.read (e : HostInputEvent) : Getter → UInt64
  | .inputType => signExtend e.type
  | .inputDeviceId => signExtend e.deviceId
  | .inputSource => signExtend e.source
  | .motionAction | .keyAction => signExtend e.action
  | .motionX | .motionRawX | .motionHistoricalX | .motionHistoricalRawX => e.x.toUInt64
  | .motionY | .motionRawY | .motionHistoricalY | .motionHistoricalRawY => e.y.toUInt64
  | .motionPointerCount => 1
  | .motionAxisValue axis =>
    if axis = 0 then e.x.toUInt64
    else if axis = 1 then e.y.toUInt64
    else if axis = 2 ∨ axis = 3 ∨ axis = 4 ∨ axis = 5 then oneFloat
    else 0
  | .keyKeyCode => signExtend e.keyCode

/-- What it returns when there is no event with the handle. -/
def Getter.missing : Getter → UInt64
  | .motionAction => signExtend (-1)
  | _ => 0

def InputQueue.get (q : InputQueue) (g : Getter) (handle : UInt64) : UInt64 :=
  match q.findInputEvent handle with
  | some e => g.read e.toHostInputEvent
  | none => g.missing

/-! ## Runs -/

/-- What happens to the queue. `collect` is a poll of the looper or of
the host's event loop; `get` is any getter. -/
inductive InputCall
  | collect (host : Option (List HostInputEvent))
  | attachLooper (queue : UInt64)
  | detachLooper (queue : UInt64)
  | hasEvents (host : Option (List HostInputEvent))
  | getEvent (queue out : UInt64) (host : Option (List HostInputEvent))
  | finishEvent (queue handle : UInt64) (host : Option (List HostInputEvent))
  | get (g : Getter) (handle : UInt64)
  deriving DecidableEq

/-- The host's input that a call comes to, if the queue is attached. -/
def InputCall.arriving : InputCall → List HostInputEvent
  | .collect host | .hasEvents host => host.getD []
  | .getEvent queue out host =>
    if queue ≠ guestInputQueue || out = 0 then [] else host.getD []
  | .finishEvent queue _ host => if queue ≠ guestInputQueue then [] else host.getD []
  | _ => []

def InputQueue.call (q : InputQueue) : InputCall → InputQueue
  | .collect host | .hasEvents host => q.collectHostInputEvents host
  | .attachLooper queue => q.attachLooper queue
  | .detachLooper queue => q.detachLooper queue
  | .getEvent queue out host => (q.getEvent queue out host).1
  | .finishEvent queue handle host => q.finishEvent queue handle host
  | .get _ _ => q

/-- The queue with a record of the run: what was queued and what was
offered, in order, and the events the guest has and has not finished. -/
structure InputWorld where
  queue : InputQueue
  queued : List HostInputEvent
  offered : List HostInputEvent
  outstanding : List (UInt64 × HostInputEvent)
  deriving DecidableEq

/-- The event a call offers. -/
def InputCall.offer (q : InputQueue) : InputCall → Option InputEventState
  | .getEvent queue out host => (q.getEvent queue out host).2
  | _ => none

/-- The call is the `finishEvent` of the event. -/
def InputCall.finishes (handle : UInt64) : InputCall → Bool
  | .finishEvent queue h _ => queue = guestInputQueue && h = handle
  | _ => false

def InputWorld.step (w : InputWorld) (c : InputCall) : InputWorld where
  queue := w.queue.call c
  queued := if w.queue.attached then w.queued ++ c.arriving else w.queued
  offered := w.offered ++ ((c.offer w.queue).map (·.toHostInputEvent)).toList
  outstanding := w.outstanding.filter (fun p => !c.finishes p.1) ++
    ((c.offer w.queue).map InputEventState.stamped).toList

def InputWorld.start : InputWorld where
  queue := .install
  queued := [installedTouch 0, installedTouch 1]
  offered := []
  outstanding := []

/-! ## What is asked of it -/

/-- What is still to be offered. -/
def InputQueue.pending (q : InputQueue) : List HostInputEvent :=
  (q.inputEvents.drop q.nextInputEvent).map (·.toHostInputEvent)

/-- **Offered once each, in order.** What was offered, followed by what is
still to be, is what was queued; and a guest that goes on calling
`getEvent` is offered the rest. -/
def InputWorld.Ordered (w : InputWorld) : Prop :=
  w.offered ++ w.queue.pending = w.queued ∧
    ∀ out : UInt64, out ≠ 0 →
      (Machine.run InputWorld.step w (List.replicate w.queue.pending.length
        (.getEvent guestInputQueue out none))).offered = w.queued

/-- All events in the deque have distinct handles. -/
def InputWorld.Distinct (w : InputWorld) : Prop :=
  (w.queue.inputEvents.map (·.handle)).Nodup

/-- Every getter returns an event's own fields until it is finished. -/
def InputWorld.OwnFields (w : InputWorld) : Prop :=
  ∀ p ∈ w.outstanding, ∀ g : Getter, w.queue.get g p.1 = g.read p.2

/-- No input from the host comes to the attached queue. -/
def InputCall.Quiet (w : InputWorld) (c : InputCall) : Prop :=
  w.queue.attached = true → c.arriving = []

instance (w : InputWorld) (c : InputCall) : Decidable (c.Quiet w) :=
  inferInstanceAs (Decidable (_ → _))

/-! ## What the operations do to the deque -/

section Deque

variable (q : InputQueue) (host : Option (List HostInputEvent))

theorem foldl_push (events : List HostInputEvent) :
    (events.foldl InputQueue.push q).attached = q.attached ∧
      (events.foldl InputQueue.push q).nextInputEvent = q.nextInputEvent ∧
      ∃ pushed, (events.foldl InputQueue.push q).inputEvents = q.inputEvents ++ pushed ∧
        pushed.map (·.toHostInputEvent) = events ∧
        ∀ e ∈ pushed.head?, e.handle = guestInputEventBase + q.nextInputEventHandle * 0x100 := by
  induction events generalizing q with
  | nil => exact ⟨rfl, rfl, [], by simp⟩
  | cons e events ih =>
    obtain ⟨hattached, hnext, pushed, hevents, hmap, -⟩ := ih (q.push e)
    refine ⟨hattached, hnext, ⟨e, guestInputEventBase + q.nextInputEventHandle * 0x100, false,
      false⟩ :: pushed, ?_, by simp [hmap], by simp⟩
    rw [List.foldl_cons, hevents]
    simp [InputQueue.push]

/-- **What collecting does.** Nothing, or it puts what arrived at the end
of the deque, the first of it with the handle that is next. -/
theorem collect_spec :
    (q.collectHostInputEvents host).attached = q.attached ∧
      (q.collectHostInputEvents host).nextInputEvent = q.nextInputEvent ∧
      ∃ pushed, (q.collectHostInputEvents host).inputEvents = q.inputEvents ++ pushed ∧
        pushed.map (·.toHostInputEvent) = (if q.attached then host.getD [] else []) ∧
        ∀ e ∈ pushed.head?, e.handle = guestInputEventBase + q.nextInputEventHandle * 0x100 := by
  cases host with
  | none => exact ⟨rfl, rfl, [], by simp [InputQueue.collectHostInputEvents]⟩
  | some events =>
    simp only [InputQueue.collectHostInputEvents, Option.getD_some]
    split
    · next hskip =>
      refine ⟨rfl, rfl, [], by simp, ?_, by simp⟩
      split
      · next hattached =>
        rw [hattached] at hskip
        simpa using hskip.symm
      · rfl
    · next hpush =>
      have hattached : q.attached = true := by
        by_contra hno
        simp [hno] at hpush
      rw [if_pos hattached]
      exact foldl_push q events

theorem collect_of_nothing (h : q.attached = true → host.getD [] = []) :
    q.collectHostInputEvents host = q := by
  cases host with
  | none => rfl
  | some events =>
    simp only [InputQueue.collectHostInputEvents]
    split
    · rfl
    · next hpush =>
      simp only [Bool.or_eq_true, Bool.not_eq_true', List.isEmpty_iff, not_or,
        Bool.not_eq_false] at hpush
      exact absurd (h hpush.1) hpush.2

theorem stamped_finishFirst (handle : UInt64) (events : List InputEventState) :
    (finishFirst handle events).map InputEventState.stamped =
      events.map InputEventState.stamped := by
  induction events with
  | nil => rfl
  | cons e events ih =>
    rw [finishFirst]
    split
    · rfl
    · rw [List.map_cons, List.map_cons, ih]

theorem stamped_offer {events : List InputEventState} {k : ℕ} {e : InputEventState}
    (h : events[k]? = some e) :
    (events.set k { e with offered := true }).map InputEventState.stamped =
      events.map InputEventState.stamped := by
  refine List.ext_getElem? fun i => ?_
  rw [List.getElem?_map, List.getElem?_map, List.getElem?_set]
  split
  · next hki =>
    rw [← hki, h]
    split
    · rfl
    · next hlong =>
      rw [List.getElem?_eq_none_iff.mpr (by omega)] at h
      cases h
  · rfl

theorem map_of_stamped {events events' : List InputEventState}
    (h : events'.map InputEventState.stamped = events.map InputEventState.stamped) :
    events'.map (·.toHostInputEvent) = events.map (·.toHostInputEvent) := by
  have hsnd := congrArg (List.map Prod.snd) h
  simpa [InputEventState.stamped, Function.comp_def] using hsnd

end Deque

/-! ## The order of events -/

/-- **The record agrees with the queue.** -/
structure InputWorld.Inv (w : InputWorld) : Prop where
  next : w.queue.nextInputEvent ≤ w.queue.inputEvents.length
  order : w.offered ++ w.queue.pending = w.queued

theorem pending_collect {q : InputQueue} (hnext : q.nextInputEvent ≤ q.inputEvents.length)
    (host : Option (List HostInputEvent)) :
    (q.collectHostInputEvents host).nextInputEvent ≤
        (q.collectHostInputEvents host).inputEvents.length ∧
      (q.collectHostInputEvents host).pending =
        q.pending ++ (if q.attached then host.getD [] else []) := by
  obtain ⟨-, hindex, pushed, hevents, hmap, -⟩ := collect_spec q host
  refine ⟨?_, ?_⟩
  · rw [hindex, hevents, List.length_append]
    omega
  · rw [InputQueue.pending, hindex, hevents, List.drop_append_of_le_length hnext, List.map_append,
      hmap]
    rfl

theorem pending_trim {q : InputQueue} (hnext : q.nextInputEvent ≤ q.inputEvents.length) :
    q.trim.nextInputEvent ≤ q.trim.inputEvents.length ∧ q.trim.pending = q.pending ∧
      q.trim.attached = q.attached := by
  unfold InputQueue.trim
  split
  · next hall =>
    simp only [Bool.and_eq_true, decide_eq_true_eq] at hall
    refine ⟨Nat.le_refl _, ?_, rfl⟩
    rw [InputQueue.pending, InputQueue.pending, List.drop_of_length_le hall.1]
    rfl
  · exact ⟨hnext, rfl, rfl⟩

/-- **What `getEvent` offers** is the first that is pending. -/
theorem getEvent_spec {q : InputQueue} (hnext : q.nextInputEvent ≤ q.inputEvents.length)
    {out : UInt64} (hout : out ≠ 0) (host : Option (List HostInputEvent)) :
    (q.getEvent guestInputQueue out host).1.nextInputEvent ≤
        (q.getEvent guestInputQueue out host).1.inputEvents.length ∧
      ((q.getEvent guestInputQueue out host).2.map (·.toHostInputEvent)).toList ++
          (q.getEvent guestInputQueue out host).1.pending =
        q.pending ++ (if q.attached then host.getD [] else []) ∧
      ((q.getEvent guestInputQueue out host).2 = none →
        (q.getEvent guestInputQueue out host).1.pending = []) := by
  obtain ⟨hnext', hpending⟩ := pending_collect hnext host
  rw [← hpending, InputQueue.getEvent, if_neg (by simp [hout])]
  simp only
  generalize q.collectHostInputEvents host = c at hnext' ⊢
  cases he : c.inputEvents[c.nextInputEvent]? with
  | none =>
    refine ⟨hnext', rfl, fun _ => ?_⟩
    rw [InputQueue.pending, List.drop_of_length_le (List.getElem?_eq_none_iff.mp he)]
    rfl
  | some e =>
    obtain ⟨hlt, hget⟩ := List.getElem?_eq_some_iff.mp he
    refine ⟨?_, ?_, fun h => by cases h⟩
    · show c.nextInputEvent + 1 ≤ (c.inputEvents.set _ _).length
      rw [List.length_set]
      omega
    simp only [InputQueue.pending, Option.map_some, Option.toList_some, List.singleton_append]
    rw [List.drop_set_of_lt (by omega), List.drop_eq_getElem_cons hlt, List.map_cons, hget]

theorem pending_finishEvent {q : InputQueue} (hnext : q.nextInputEvent ≤ q.inputEvents.length)
    (handle : UInt64) (host : Option (List HostInputEvent)) :
    (q.finishEvent guestInputQueue handle host).nextInputEvent ≤
        (q.finishEvent guestInputQueue handle host).inputEvents.length ∧
      (q.finishEvent guestInputQueue handle host).pending =
        q.pending ++ (if q.attached then host.getD [] else []) := by
  have hstamped := stamped_finishFirst handle q.inputEvents
  have hlength : (finishFirst handle q.inputEvents).length = q.inputEvents.length := by
    simpa using congrArg List.length hstamped
  rw [InputQueue.finishEvent, if_neg (by simp)]
  have hmarked : q.nextInputEvent ≤ (finishFirst handle q.inputEvents).length := by omega
  obtain ⟨htnext, htpending, htattached⟩ := pending_trim
    (q := { q with inputEvents := finishFirst handle q.inputEvents }) hmarked
  have hpending : InputQueue.pending { q with inputEvents := finishFirst handle q.inputEvents } =
      q.pending := by
    rw [InputQueue.pending, InputQueue.pending, List.map_drop, List.map_drop,
      map_of_stamped hstamped]
  rw [hpending] at htpending
  simp only at htattached ⊢
  split
  · obtain ⟨hcnext, hcpending⟩ := pending_collect htnext host
    rw [hcpending, htpending, htattached]
    exact ⟨hcnext, rfl⟩
  · next hdetached =>
    rw [htattached] at hdetached
    rw [if_neg hdetached, List.append_nil]
    exact ⟨htnext, htpending⟩

theorem InputWorld.Inv.step {w : InputWorld} (h : w.Inv) (c : InputCall) : (w.step c).Inv := by
  have hqueued : (w.step c).queued = w.queued ++ (if w.queue.attached then c.arriving else []) := by
    show (if _ then _ else _) = _
    split
    · rfl
    · rw [List.append_nil]
  -- an operation that offers nothing and puts what arrived at the end of what is pending
  have hquiet : c.offer w.queue = none →
      (w.queue.call c).nextInputEvent ≤ (w.queue.call c).inputEvents.length →
      (w.queue.call c).pending =
        w.queue.pending ++ (if w.queue.attached then c.arriving else []) → (w.step c).Inv := by
    intro hoffer hnext hpending
    refine ⟨hnext, ?_⟩
    show w.offered ++ _ ++ (w.queue.call c).pending = _
    rw [hoffer, hpending, hqueued, ← h.order]
    simp
  cases c with
  | collect host =>
    obtain ⟨hnext, hpending⟩ := pending_collect h.next host
    exact hquiet rfl hnext hpending
  | hasEvents host =>
    obtain ⟨hnext, hpending⟩ := pending_collect h.next host
    exact hquiet rfl hnext hpending
  | attachLooper queue =>
    refine hquiet rfl ?_ ?_
    · simp only [InputQueue.call, InputQueue.attachLooper]
      split <;> exact h.next
    · simp only [InputQueue.call, InputQueue.attachLooper, InputCall.arriving, ite_self,
        List.append_nil]
      split <;> rfl
  | detachLooper queue =>
    refine hquiet rfl ?_ ?_
    · simp only [InputQueue.call, InputQueue.detachLooper]
      split <;> exact h.next
    · simp only [InputQueue.call, InputQueue.detachLooper, InputCall.arriving, ite_self,
        List.append_nil]
      split <;> rfl
  | get g handle =>
    refine hquiet rfl h.next ?_
    simp [InputQueue.call, InputCall.arriving]
  | finishEvent queue handle host =>
    by_cases hqueue : queue = guestInputQueue
    · subst hqueue
      obtain ⟨hnext, hpending⟩ := pending_finishEvent h.next handle host
      refine hquiet rfl hnext ?_
      simpa [InputQueue.call, InputCall.arriving] using hpending
    · have hcall : w.queue.call (.finishEvent queue handle host) = w.queue :=
        if_pos (by simpa using hqueue)
      refine hquiet rfl (by rw [hcall]; exact h.next) ?_
      rw [hcall]
      simp [InputCall.arriving, hqueue]
  | getEvent queue out host =>
    by_cases hbad : queue ≠ guestInputQueue || out = 0
    · have hget : w.queue.getEvent queue out host = (w.queue, none) := if_pos hbad
      have hcall : w.queue.call (.getEvent queue out host) = w.queue := congrArg Prod.fst hget
      refine hquiet (congrArg Prod.snd hget) (by rw [hcall]; exact h.next) ?_
      rw [hcall, InputCall.arriving, if_pos hbad]
      simp
    · simp only [ne_eq, decide_not, Bool.or_eq_true, Bool.not_eq_true', decide_eq_false_iff_not,
        decide_eq_true_eq, not_or, not_not] at hbad
      obtain ⟨rfl, hout⟩ := hbad
      obtain ⟨hnext, hpending, -⟩ := getEvent_spec h.next hout host
      refine ⟨hnext, ?_⟩
      show w.offered ++ _ ++ (w.queue.getEvent guestInputQueue out host).1.pending = _
      rw [hqueued, ← h.order, List.append_assoc, List.append_assoc]
      congr 1
      refine hpending.trans ?_
      simp [InputCall.arriving, hout]

/-- A guest that goes on asking is offered what is pending. -/
theorem offered_of_getEvents {w : InputWorld} (h : w.Inv) {out : UInt64} (hout : out ≠ 0) (n : ℕ) :
    (Machine.run InputWorld.step w
      (List.replicate n (.getEvent guestInputQueue out none))).offered =
        w.offered ++ w.queue.pending.take n := by
  induction n generalizing w with
  | zero => simp
  | succ n ih =>
    obtain ⟨-, hpending, hnone⟩ := getEvent_spec h.next hout none
    simp only [Option.getD_none, ite_self, List.append_nil] at hpending
    rw [List.replicate_succ, Machine.run_cons, ih (h.step _)]
    show w.offered ++ ((w.queue.getEvent guestInputQueue out none).2.map _).toList ++
      (w.queue.getEvent guestInputQueue out none).1.pending.take n = _
    rw [← hpending, List.append_assoc]
    cases hoffer : (w.queue.getEvent guestInputQueue out none).2 with
    | none => simp [hnone hoffer]
    | some e => simp

theorem InputWorld.Inv.ordered {w : InputWorld} (h : w.Inv) : w.Ordered := by
  refine ⟨h.order, fun out hout => ?_⟩
  rw [offered_of_getEvents h hout, List.take_length, h.order]

/-! ## The handles -/

/-- The events of `install` as the guest knows them. -/
def installedEvents : List (UInt64 × HostInputEvent) :=
  [(guestInputEventBase + 0x00, installedTouch 0), (guestInputEventBase + 0x100, installedTouch 1)]

/-- **Nothing was queued yet.** The deque has the events of `install`, and
these are all the guest can have. -/
structure InputWorld.Fresh (w : InputWorld) : Prop where
  events : w.queue.inputEvents.map InputEventState.stamped = installedEvents
  counter : w.queue.nextInputEventHandle = 0
  outstanding : ∀ p ∈ w.outstanding, p ∈ installedEvents

theorem map_handle (events : List InputEventState) :
    events.map (·.handle) = (events.map InputEventState.stamped).map Prod.fst := by
  simp [InputEventState.stamped, Function.comp_def]

theorem InputWorld.Fresh.distinct {w : InputWorld} (h : w.Fresh) : w.Distinct := by
  rw [InputWorld.Distinct, map_handle, h.events]
  decide

theorem InputWorld.Fresh.ownFields {w : InputWorld} (h : w.Fresh) : w.OwnFields := by
  obtain ⟨first, second, hevents⟩ : ∃ first second, w.queue.inputEvents = [first, second] := by
    have hlength := congrArg List.length h.events
    rw [List.length_map] at hlength
    exact List.length_eq_two.mp hlength
  have hstamped := h.events
  rw [hevents] at hstamped
  simp only [List.map_cons, List.map_nil, installedEvents, List.cons.injEq, and_true,
    InputEventState.stamped, Prod.mk.injEq] at hstamped
  obtain ⟨⟨hfirst, hdown⟩, hsecond, hup⟩ := hstamped
  intro p hp g
  have hp' := h.outstanding p hp
  simp only [installedEvents, List.mem_cons, List.not_mem_nil, or_false] at hp'
  rw [InputQueue.get, InputQueue.findInputEvent, hevents]
  rcases hp' with rfl | rfl
  · simp [hfirst, hdown]
  · simp [hfirst, hsecond, hup]

/-- What was pushed, as the guest will know it. -/
def Pushed (q : InputQueue) (arrived : List HostInputEvent) (q' : InputQueue) : Prop :=
  ∃ pushed, q'.inputEvents.map InputEventState.stamped =
      q.inputEvents.map InputEventState.stamped ++ pushed ∧
    pushed.map Prod.snd = (if q.attached then arrived else []) ∧
    ∀ p ∈ pushed.head?, p.1 = guestInputEventBase + q.nextInputEventHandle * 0x100

theorem Pushed.collect (q : InputQueue) (host : Option (List HostInputEvent)) :
    Pushed q (host.getD []) (q.collectHostInputEvents host) := by
  obtain ⟨-, -, pushed, hevents, hmap, hhead⟩ := collect_spec q host
  refine ⟨pushed.map InputEventState.stamped, by rw [hevents, List.map_append], ?_, ?_⟩
  · rw [← hmap, List.map_map]
    rfl
  · cases pushed with
    | nil => simp
    | cons e pushed => simpa [InputEventState.stamped] using hhead

theorem Pushed.of_nothing {q q' : InputQueue}
    (h : q'.inputEvents.map InputEventState.stamped = q.inputEvents.map InputEventState.stamped) :
    Pushed q [] q' :=
  ⟨[], by simp [h], by simp, by simp⟩

theorem getEvent_stamped (q : InputQueue) {out : UInt64} (hout : out ≠ 0)
    (host : Option (List HostInputEvent)) :
    (q.getEvent guestInputQueue out host).1.inputEvents.map InputEventState.stamped =
        (q.collectHostInputEvents host).inputEvents.map InputEventState.stamped ∧
      (q.getEvent guestInputQueue out host).1.nextInputEventHandle =
        (q.collectHostInputEvents host).nextInputEventHandle ∧
      ∀ e ∈ (q.getEvent guestInputQueue out host).2,
        e ∈ (q.collectHostInputEvents host).inputEvents := by
  rw [InputQueue.getEvent, if_neg (by simp [hout])]
  simp only
  split
  · exact ⟨rfl, rfl, by simp⟩
  · next e he =>
    refine ⟨stamped_offer he, rfl, ?_⟩
    rintro e' ⟨rfl⟩
    exact List.mem_of_getElem? he

/-- While the deque is short, `finishEvent` only marks and collects. -/
theorem finishEvent_short {q : InputQueue} (hshort : q.inputEvents.length ≤ 100)
    (handle : UInt64) (host : Option (List HostInputEvent)) :
    q.finishEvent guestInputQueue handle host =
      InputQueue.collectHostInputEvents
        { q with inputEvents := finishFirst handle q.inputEvents } host := by
  have hlength : (finishFirst handle q.inputEvents).length = q.inputEvents.length := by
    simpa using congrArg List.length (stamped_finishFirst handle q.inputEvents)
  have htrim : InputQueue.trim { q with inputEvents := finishFirst handle q.inputEvents } =
      { q with inputEvents := finishFirst handle q.inputEvents } := by
    rw [InputQueue.trim, if_neg]
    simp only [hlength, Bool.and_eq_true, decide_eq_true_eq]
    omega
  rw [InputQueue.finishEvent, if_neg (by simp), htrim]
  simp only
  split
  · rfl
  · next hdetached =>
    refine (collect_of_nothing _ _ ?_).symm
    intro hattached
    exact absurd hattached hdetached

/-- **What a call pushes**, while the deque is short. -/
theorem pushed_call {q : InputQueue} (hshort : q.inputEvents.length ≤ 100) (c : InputCall) :
    Pushed q c.arriving (q.call c) := by
  cases c with
  | collect host => exact Pushed.collect q host
  | hasEvents host => exact Pushed.collect q host
  | attachLooper queue =>
    refine Pushed.of_nothing ?_
    simp only [InputQueue.call, InputQueue.attachLooper]
    split <;> rfl
  | detachLooper queue =>
    refine Pushed.of_nothing ?_
    simp only [InputQueue.call, InputQueue.detachLooper]
    split <;> rfl
  | get g handle => exact Pushed.of_nothing rfl
  | getEvent queue out host =>
    simp only [InputQueue.call, InputCall.arriving]
    split
    · next hbad =>
      rw [InputQueue.getEvent, if_pos hbad]
      exact Pushed.of_nothing rfl
    · next hgood =>
      simp only [ne_eq, decide_not, Bool.or_eq_true, Bool.not_eq_true', decide_eq_false_iff_not,
        decide_eq_true_eq, not_or, not_not] at hgood
      obtain ⟨rfl, hout⟩ := hgood
      obtain ⟨pushed, hevents, hrest⟩ := Pushed.collect q host
      exact ⟨pushed, (getEvent_stamped q hout host).1.trans hevents, hrest⟩
  | finishEvent queue handle host =>
    simp only [InputQueue.call, InputCall.arriving]
    split
    · next hbad =>
      rw [InputQueue.finishEvent, if_pos hbad]
      exact Pushed.of_nothing rfl
    · next hgood =>
      rw [not_not.mp hgood, finishEvent_short hshort]
      obtain ⟨pushed, hevents, hrest⟩ :=
        Pushed.collect { q with inputEvents := finishFirst handle q.inputEvents } host
      exact ⟨pushed, hevents.trans (by rw [stamped_finishFirst]), hrest⟩

theorem InputWorld.Fresh.short {w : InputWorld} (h : w.Fresh) :
    w.queue.inputEvents.length ≤ 100 := by
  have hlength := congrArg List.length h.events
  rw [List.length_map] at hlength
  rw [hlength]
  decide

/-- The first input from the host gets a handle that is taken. -/
theorem InputWorld.Fresh.broken {w : InputWorld} (h : w.Fresh) {c : InputCall}
    (hc : ¬c.Quiet w) : ¬(w.step c).Distinct := by
  simp only [InputCall.Quiet, Classical.not_imp] at hc
  obtain ⟨hattached, hsome⟩ := hc
  obtain ⟨pushed, hevents, hmap, hhead⟩ := pushed_call h.short c
  rw [if_pos hattached] at hmap
  cases pushed with
  | nil => exact absurd hmap.symm hsome
  | cons p pushed =>
    have hhandle : p.1 = guestInputEventBase := by
      rw [hhead p rfl, h.counter]
      rfl
    show ¬((w.queue.call c).inputEvents.map (·.handle)).Nodup
    rw [map_handle, hevents, h.events]
    simp [installedEvents, hhandle]

theorem counter_call {q : InputQueue} (hshort : q.inputEvents.length ≤ 100) {c : InputCall}
    (hc : q.attached = true → c.arriving = []) :
    (q.call c).nextInputEventHandle = q.nextInputEventHandle := by
  cases c with
  | collect host => exact congrArg _ (collect_of_nothing q host hc)
  | hasEvents host => exact congrArg _ (collect_of_nothing q host hc)
  | attachLooper queue =>
    simp only [InputQueue.call, InputQueue.attachLooper]
    split <;> rfl
  | detachLooper queue =>
    simp only [InputQueue.call, InputQueue.detachLooper]
    split <;> rfl
  | get g handle => rfl
  | getEvent queue out host =>
    simp only [InputCall.arriving] at hc
    split at hc
    · next hbad => rw [InputQueue.call, InputQueue.getEvent, if_pos hbad]
    · next hgood =>
      simp only [ne_eq, decide_not, Bool.or_eq_true, Bool.not_eq_true', decide_eq_false_iff_not,
        decide_eq_true_eq, not_or, not_not] at hgood
      obtain ⟨rfl, hout⟩ := hgood
      exact (getEvent_stamped q hout host).2.1.trans (congrArg _ (collect_of_nothing q host hc))
  | finishEvent queue handle host =>
    simp only [InputCall.arriving] at hc
    split at hc
    · next hbad => rw [InputQueue.call, InputQueue.finishEvent, if_pos hbad]
    · next hgood =>
      have hnone := collect_of_nothing { q with inputEvents := finishFirst handle q.inputEvents }
        host hc
      rw [InputQueue.call, not_not.mp hgood, finishEvent_short hshort, hnone]

theorem offer_mem {q : InputQueue} {c : InputCall} (hc : q.attached = true → c.arriving = [])
    {e : InputEventState} (he : c.offer q = some e) : e ∈ q.inputEvents := by
  cases c with
  | getEvent queue out host =>
    simp only [InputCall.arriving] at hc
    simp only [InputCall.offer] at he
    split at hc
    · next hbad =>
      rw [InputQueue.getEvent, if_pos hbad] at he
      cases he
    · next hgood =>
      simp only [ne_eq, decide_not, Bool.or_eq_true, Bool.not_eq_true', decide_eq_false_iff_not,
        decide_eq_true_eq, not_or, not_not] at hgood
      obtain ⟨rfl, hout⟩ := hgood
      have hmem := (getEvent_stamped q hout host).2.2 e he
      rwa [collect_of_nothing q host hc] at hmem
  | _ => cases he

/-- Calls to which nothing arrives keep it so. -/
theorem InputWorld.Fresh.step {w : InputWorld} (h : w.Fresh) {c : InputCall} (hc : c.Quiet w) :
    (w.step c).Fresh := by
  refine ⟨?_, (counter_call h.short hc).trans h.counter, fun p hp => ?_⟩
  · obtain ⟨pushed, hevents, hmap, -⟩ := pushed_call h.short c
    have hnone : pushed = [] := by
      refine List.map_eq_nil_iff.mp (hmap.trans ?_)
      split
      · next hattached => exact hc hattached
      · rfl
    show (w.queue.call c).inputEvents.map InputEventState.stamped = _
    rw [hevents, hnone, List.append_nil, h.events]
  · rcases List.mem_append.mp hp with hold | hnew
    · exact h.outstanding p (List.mem_of_mem_filter hold)
    · rw [Option.mem_toList, Option.map_eq_some_iff] at hnew
      obtain ⟨e, he, rfl⟩ := hnew
      rw [← h.events]
      exact List.mem_map_of_mem (offer_mem hc he)

/-! ## Whole runs -/

/-- **The input queue over whole runs.** For every run of calls after
`install`: events are offered once each and in order, throughout; the
handles in the deque stay distinct and the getters true to the events
that were offered exactly if no input from the host ever comes to the
attached queue. -/
theorem input_queue_integrity (calls : List InputCall) :
    Machine.Throughout InputWorld.step InputWorld.Ordered InputWorld.start calls ∧
      (Machine.Throughout InputWorld.step (fun w => w.Distinct ∧ w.OwnFields)
          InputWorld.start calls ↔
        Machine.Meets InputWorld.step (fun w c => c.Quiet w) InputWorld.start calls) := by
  constructor
  · have hstart : InputWorld.start.Inv := ⟨by decide, by decide⟩
    have hinv := Machine.throughout_of_kept (K := InputWorld.Inv)
      (fun w c hw => hw.step c) hstart calls
    exact hinv.mono fun w hw => hw.ordered
  · have hstart : InputWorld.start.Fresh := ⟨rfl, rfl, by simp [InputWorld.start]⟩
    refine Machine.throughout_iff_meets_of_breaks (K := InputWorld.Fresh) ?_ ?_ ?_ hstart
    · exact fun w c hw hc => hw.step hc
    · exact fun w hw => ⟨hw.distinct, hw.ownFields⟩
    · exact fun w c hw hc hgood => hw.broken hc hgood.1

/-- A key press, and a guest that attaches to the queue and asks for
three events. -/
def keyPress : HostInputEvent where
  type := 1
  action := 0
  source := 0x101
  deviceId := 2
  keyCode := 29
  x := 0
  y := 0

def keyPressed : List InputCall :=
  [.attachLooper guestInputQueue, .collect (some [keyPress]),
   .getEvent guestInputQueue 0x1000 none, .getEvent guestInputQueue 0x1000 none,
   .getEvent guestInputQueue 0x1000 none]

/-- **A key press read as a touch.** It gets the handle of the first touch
of `install`, and its getters return what that touch has. -/
theorem key_read_as_touch :
    ¬(∀ calls : List InputCall, Machine.Throughout InputWorld.step
        (fun w => w.Distinct ∧ w.OwnFields ∧ w.Ordered) InputWorld.start calls) ∧
      (guestInputEventBase, keyPress) ∈
        (Machine.run InputWorld.step InputWorld.start keyPressed).outstanding ∧
      (Machine.run InputWorld.step InputWorld.start keyPressed).queue.get .inputType
        guestInputEventBase = 2 := by
  refine ⟨fun hall => ?_, by decide, by decide⟩
  have hlast := (hall keyPressed).last.1
  revert hlast
  unfold InputWorld.Distinct
  decide

end Android

end Muplar
