import Muplar.Framework.Action
/-!
# The framework — from the stream to the main thread

The daemon numbers the actions it accepts and announces each to its
subscribers; the framework reads the announcements of one subscription
after the other, numbers launches of its own with the same counter, and
hands what it lets through to `applyActionOnMain`, on the main thread and
in turns.

An announcement is dropped where its number is not above the counter,
which a launch of this process has moved and which a restart of the daemon
leaves behind; an action may be handed over before one that is waiting;
and one that waits may be forgotten. Where no step does either, nothing is
lost and nothing is repeated (`actions_handed`).
-/

namespace Muplar

namespace Framework

open Daemon Machine

/-! ## Threads and messages -/

/-- Where an action comes from: an announcement, or a call of `launchApp`,
which are counted. -/
inductive Origin
  | announced (text : Bytes)
  | launched (call : ℕ)
  deriving DecidableEq

/-- An action on its way to `applyActionOnMain`. -/
structure Item where
  origin : Origin
  action : DeviceAction
  deriving DecidableEq

/-- A message of the main looper: the runnable of `dispatchAction`, or that
of `flushPendingActions`. -/
inductive Post
  | run (item : Item)
  | flush
  deriving DecidableEq

/-- What the main thread is in the middle of: nothing, a runnable that found
it was not ready, one that has applied its action, and one that applies
what was pending. -/
inductive Main
  | idle
  | queueing (item : Item)
  | applied
  | flushing (rest : List Item)
  deriving DecidableEq

/-- A thread in `dispatchAction`: at its beginning, and after it has found
no looper. -/
inductive Dispatch
  | start (item : Item)
  | queueing (item : Item)
  deriving DecidableEq

/-- A subscription: the announcements not read yet, and whether the daemon
is still there to write. -/
structure Stream where
  frames : List Bytes := []
  alive : Bool := true
  deriving DecidableEq

/-- The daemon's device state with `FrameworkDeviceController` and its
threads. The announcements made on subscriptions of this process and what
was handed to `applyActionOnMain` are kept as they come. -/
structure Controller where
  device : DeviceState
  stream : Option Stream := none
  reader : Option Dispatch := none
  launchers : List Dispatch := []
  generation : Int64 := 0
  looper : Bool := false
  mainReady : Bool := false
  flushers : ℕ := 0
  pending : List Item := []
  queue : List Post := []
  main : Main := .idle
  calls : ℕ := 0
  announced : List Bytes := []
  handed : List Item := []
  deriving DecidableEq

/-- What may happen next, in any order. -/
inductive Event
  /-- A client sends a device action. -/
  | action (payload : Bytes)
  /-- The daemon goes and comes back. -/
  | restart
  /-- `initSubscriber` succeeds. -/
  | subscribe
  /-- `readActions` takes a frame. -/
  | read
  /-- `readActions` meets the end of the stream. -/
  | ended
  /-- `readActions` goes on in `dispatchAction`. -/
  | dispatch
  /-- `launchApp` is called. -/
  | launch (apkPath packageName activityName applicationName : Option JavaString)
  /-- Such a call goes on in `dispatchAction`. -/
  | launcher (k : ℕ)
  /-- The main looper comes to be. -/
  | prepareLooper
  /-- `registerActivityForTab`, up to its flush. -/
  | register
  /-- Its `flushPendingActions`. -/
  | flush
  /-- The main thread goes on; the tab of the action has an activity or has
  not. -/
  | main (hasActivity : Bool)

namespace Controller

/-- The daemon serves a device action and announces it. -/
def act (c : Controller) (payload : Bytes) : Controller :=
  match applyDeviceAction c.device payload with
  | none => c
  | some device =>
    match c.stream with
    | some ⟨frames, true⟩ =>
      { c with device, stream := some ⟨frames ++ [deviceStateReply device], true⟩,
               announced := c.announced ++ [deviceStateReply device] }
    | _ => { c with device }

/-- The daemon is sent a request, or is not. -/
def told (c : Controller) : Option (UInt16 × Bytes) → Controller
  | some (opcode, payload) =>
    if Opcode.ofCode opcode = some .deviceAction then c.act payload else c
  | none => c

/-- A step of `dispatchAction`: where the thread stands afterwards. -/
def dispatched (c : Controller) : Dispatch → Option Dispatch × Controller
  | .start item =>
    if c.looper then (none, { c with queue := c.queue ++ [.run item] })
    else (some (.queueing item), c)
  | .queueing item => (none, { c with pending := c.pending ++ [item] })

/-- `flushPendingActions`. -/
def flushPendingActions (c : Controller) : Controller :=
  if c.looper then { c with queue := c.queue ++ [.flush] } else c

end Controller

/-- `isHostTab`. -/
def isHostTab (tab : JavaString) : Bool :=
  tab = java "launcher" || tab = java "settings"

/-- `isReadyFor`. -/
def isReadyFor (mainReady hasActivity : Bool) (next : DeviceAction) : Bool :=
  if next.action = java "focus-tab" ∧ isHostTab next.fields.tab = false ∧ hasActivity = false then
    true
  else mainReady

namespace Controller

/-- The main thread goes on. -/
def turn (c : Controller) (hasActivity : Bool) : Controller :=
  match c.main with
  | .idle =>
    match c.queue with
    | [] => c
    | .run item :: queue =>
      if isReadyFor c.mainReady hasActivity item.action then
        { c with queue, handed := c.handed ++ [item], main := .applied }
      else { c with queue, main := .queueing item }
    | .flush :: queue =>
      if c.mainReady = false ∨ c.pending = [] then { c with queue }
      else { c with queue, pending := [], main := .flushing c.pending }
  | .queueing item => { c with pending := c.pending ++ [item], main := .idle }
  | .applied => { c.flushPendingActions with main := .idle }
  | .flushing [] => { c with main := .idle }
  | .flushing (item :: rest) => { c with handed := c.handed ++ [item], main := .flushing rest }

/-- `readActions` takes a frame: it gives the stream up where the frame is
too long, and `applyAction` drops what is not above the counter. -/
def read (J : JavaLibrary) (c : Controller) : Controller :=
  match c.reader, c.stream with
  | none, some ⟨text :: frames, alive⟩ =>
    match echo J c.generation text with
    | none => { c with stream := none }
    | some next =>
      if next.generation ≤ c.generation then { c with stream := some ⟨frames, alive⟩ }
      else
        { c with stream := some ⟨frames, alive⟩, generation := next.generation,
                 reader := some (.start ⟨.announced text, next⟩) }
  | _, _ => c

/-- One event. -/
def next (J : JavaLibrary) (c : Controller) : Event → Controller
  | .action payload => c.act payload
  | .restart =>
    { c with device := {}, stream := c.stream.map fun stream => { stream with alive := false } }
  | .subscribe => if c.stream = none then { c with stream := some {} } else c
  | .read => c.read J
  | .ended => if c.reader = none ∧ c.stream = some ⟨[], false⟩ then { c with stream := none } else c
  | .dispatch =>
    match c.reader with
    | none => c
    | some d => { (c.dispatched d).2 with reader := (c.dispatched d).1 }
  | .launch apkPath packageName activityName applicationName =>
    match launchApp c.generation apkPath packageName activityName applicationName with
    | none => c
    | some l =>
      { c.told l.sent with
        generation := l.action.generation
        calls := c.calls + 1
        launchers := c.launchers ++ [.start ⟨.launched c.calls, l.action⟩] }
  | .launcher k =>
    match c.launchers[k]? with
    | none => c
    | some d =>
      { (c.dispatched d).2 with
        launchers := c.launchers.take k ++ ((c.dispatched d).1.toList ++ c.launchers.drop (k + 1)) }
  | .prepareLooper => { c with looper := true }
  | .register => { c with mainReady := true, flushers := c.flushers + 1 }
  | .flush =>
    if c.flushers = 0 then c else { c.flushPendingActions with flushers := c.flushers - 1 }
  | .main hasActivity => c.turn hasActivity

/-- The process starts, with a daemon in any state. -/
def start (device : DeviceState) : Controller :=
  { device }

end Controller

/-! ## Nothing lost, nothing repeated -/

/-- The announcement an item was read from. -/
def Item.text (item : Item) : Option Bytes :=
  match item.origin with
  | .announced text => some text
  | .launched _ => none

/-- The call of `launchApp` an item was made by. -/
def Item.call (item : Item) : Option ℕ :=
  match item.origin with
  | .announced _ => none
  | .launched call => some call

/-- What a launch brings to the daemon is nothing. -/
theorem launchApp_sent {generation : Int64} {apkPath packageName activityName applicationName :
    Option JavaString} {l : Launch}
    (h : launchApp generation apkPath packageName activityName applicationName = some l) :
    l.sent = none := by
  rw [launchApp] at h
  split at h
  · cases h
  · rw [← Option.some.inj h]
    exact request_deviceAction
      (launchPayload ⟨packageName, apkPath, packageName, activityName, applicationName⟩)

/-- The announcements among the items. -/
def texts (items : List Item) : List Bytes :=
  items.filterMap Item.text

/-- The launches among the items. -/
def callsOf (items : List Item) : List ℕ :=
  items.filterMap Item.call

/-- The announcements not read yet. -/
def Controller.frames (c : Controller) : List Bytes :=
  (c.stream.map Stream.frames).getD []

/-- **Nothing is left to do**: all is read, no thread is under way, and the
main thread is ready and has no message. -/
structure Controller.AtRest (c : Controller) : Prop where
  read : c.frames = []
  reader : c.reader = none
  launchers : c.launchers = []
  flushers : c.flushers = 0
  queue : c.queue = []
  main : c.main = .idle
  looper : c.looper = true
  ready : c.mainReady = true

/-- **Actions are neither lost nor repeated.** What was announced is handed
over in its order and without a gap, and no launch twice; and when nothing
is left to do, each announcement and each launch has been handed over. -/
structure Controller.Faithful (c : Controller) : Prop where
  inOrder : texts c.handed <+: c.announced
  once : ∀ call, (callsOf c.handed).count call ≤ if call < c.calls then 1 else 0
  complete : c.AtRest → texts c.handed = c.announced ∧
    ∀ call, (callsOf c.handed).count call = if call < c.calls then 1 else 0

/-- A flush will come. -/
def Controller.FlushDue (c : Controller) : Prop :=
  .flush ∈ c.queue ∨ 0 < c.flushers ∨ c.main = .applied

/-- **A step in order.** An announcement that is read has room in a frame
and a generation above the counter; what is queued for want of a looper is
queued before the main thread is ready, or a flush will come; no flush
finds actions pending and no looper, unless another comes; and no
announced action is handed over at once while another is pending. -/
def Controller.Orderly (J : JavaLibrary) (c : Controller) : Event → Prop
  | .read => ∀ text frames alive, c.reader = none → c.stream = some ⟨text :: frames, alive⟩ →
    ∃ next, echo J c.generation text = some next ∧ c.generation < next.generation
  | .dispatch => ∀ item, c.reader = some (.queueing item) → c.mainReady = true → c.FlushDue
  | .launcher k => ∀ item, c.launchers[k]? = some (.queueing item) → c.mainReady = true →
    c.FlushDue
  | .flush => c.looper = true ∨ c.pending = [] ∨ c.flushers ≠ 1
  | .main hasActivity => ∀ item queue, c.main = .idle → c.queue = .run item :: queue →
    isReadyFor c.mainReady hasActivity item.action = true → item.text ≠ none →
    texts c.pending = []
  | _ => True

/-! ## What is on its way -/

@[simp] theorem texts_append (items more : List Item) :
    texts (items ++ more) = texts items ++ texts more :=
  List.filterMap_append

@[simp] theorem callsOf_append (items more : List Item) :
    callsOf (items ++ more) = callsOf items ++ callsOf more :=
  List.filterMap_append

@[simp] theorem texts_nil : texts [] = [] := rfl

@[simp] theorem texts_cons (item : Item) (items : List Item) :
    texts (item :: items) = item.text.toList ++ texts items := by
  rw [texts, texts, List.filterMap_cons]
  cases item.text <;> rfl

@[simp] theorem callsOf_nil : callsOf [] = [] := rfl

@[simp] theorem callsOf_cons (item : Item) (items : List Item) :
    callsOf (item :: items) = item.call.toList ++ callsOf items := by
  rw [callsOf, callsOf, List.filterMap_cons]
  cases item.call <;> rfl

/-- What the main thread has taken from the pending actions. -/
def Main.taken : Main → List Item
  | .flushing rest => rest
  | _ => []

/-- What it is about to put there. -/
def Main.held : Main → List Item
  | .queueing item => [item]
  | _ => []

def Post.items : Post → List Item
  | .run item => [item]
  | .flush => []

def Dispatch.item : Dispatch → Item
  | .start item => item
  | .queueing item => item

namespace Controller

/-- The items in the messages of the main looper. -/
def posted (c : Controller) : List Item :=
  c.queue.flatMap Post.items

/-- The item the reader has in hand. -/
def reading (c : Controller) : List Item :=
  (c.reader.map Dispatch.item).toList

/-- **All items let through by the reader**, or posted or queued by a
launch, the oldest announcement first. -/
def line (c : Controller) : List Item :=
  c.handed ++ c.main.taken ++ c.pending ++ c.main.held ++ c.posted ++ c.reading

/-- **The line is kept.** -/
structure Kept (c : Controller) : Prop where
  /-- The line and the frames are what was announced. -/
  order : texts c.line ++ c.frames = c.announced
  /-- Each call has one item, in the line or in its thread. -/
  calls : ∀ call, (callsOf (c.line ++ c.launchers.map Dispatch.item)).count call =
    if call < c.calls then 1 else 0
  launchers : ∀ d ∈ c.launchers, d.item.text = none
  /-- Nothing is posted without a looper. -/
  posts : c.looper = false → c.queue = [] ∧ c.main = .idle
  /-- Behind an announcement that found no looper, none was posted. -/
  alone : ∀ item, c.reader = some (.queueing item) → texts c.main.held = [] ∧ texts c.posted = []
  /-- What is pending will be flushed. -/
  due : c.pending ≠ [] ∨ c.main.held ≠ [] → c.mainReady = true → c.FlushDue

variable {J : JavaLibrary} {c : Controller}

theorem kept_start (device : DeviceState) : (start device).Kept where
  order := rfl
  calls := fun call => by simp [start, line, posted, reading, Main.taken, Main.held, callsOf]
  launchers := by simp [start]
  posts := fun _ => ⟨rfl, rfl⟩
  alone := by simp [start]
  due := by simp [start, Main.held]

/-! ## One step -/

/-- The daemon announces behind what was announced. -/
theorem kept_act (h : c.Kept) (payload : Bytes) : (c.act payload).Kept := by
  rw [act]
  cases applyDeviceAction c.device payload with
  | none => exact h
  | some device =>
    dsimp only
    split
    · next unread hstream =>
      have horder : texts c.line ++ unread = c.announced := by
        rw [← h.order, Controller.frames, hstream]
        rfl
      refine { h with order := ?_ }
      change texts c.line ++ (unread ++ [deviceStateReply device]) = _
      rw [← List.append_assoc, horder]
    · exact { h with }

/-- A frame moves from the stream to the reader. -/
theorem kept_read (h : c.Kept) (hok : c.Orderly J .read) : (c.read J).Kept := by
  rw [read]
  split
  · next text unread alive hreader hstream =>
    obtain ⟨next, hecho, hlt⟩ := hok text unread alive hreader hstream
    have hle : ¬next.generation ≤ c.generation := Int64.not_le.mpr hlt
    rw [hecho]
    dsimp only
    rw [if_neg hle]
    have horder := h.order
    have hcalls := h.calls
    simp only [line, reading, hreader, Controller.frames, hstream] at horder hcalls
    refine { h with order := ?_, calls := ?_, alone := ?_ }
    · simpa [line, posted, reading, Controller.frames, Dispatch.item, Item.text] using horder
    · simpa [line, posted, reading, Dispatch.item, Item.call] using hcalls
    · intro item hitem
      cases hitem
  · exact h

/-- The stream is given up when it is empty. -/
theorem kept_ended (h : c.Kept) (hstream : c.stream = some ⟨[], false⟩) :
    ({ c with stream := none } : Controller).Kept := by
  refine { h with order := ?_ }
  have horder := h.order
  simp only [Controller.frames, hstream] at horder
  exact horder

/-- A flush that is due stays due while messages and flushers only come. -/
theorem FlushDue.mono {c' : Controller} (h : c.FlushDue) (hqueue : ∀ p ∈ c.queue, p ∈ c'.queue)
    (hflushers : c.flushers ≤ c'.flushers) (hmain : c'.main = c.main) : c'.FlushDue := by
  rcases h with h | h | h
  · exact .inl (hqueue _ h)
  · exact .inr (.inl (Nat.lt_of_lt_of_le h hflushers))
  · exact .inr (.inr (hmain.trans h))

/-- The reader posts its announcement, or queues it. -/
theorem kept_dispatch (h : c.Kept) (hok : c.Orderly J .dispatch) : (c.next J .dispatch).Kept := by
  have horder := h.order
  have hcalls := h.calls
  simp only [next]
  split
  · exact h
  · next d hreader =>
    simp only [line, posted, reading, hreader] at horder hcalls
    cases d with
    | start item =>
      simp only [dispatched]
      split
      · next hlooper =>
        refine { h with order := ?_, calls := ?_, posts := ?_, alone := ?_, due := ?_ }
        · simpa [line, posted, reading, Controller.frames, Post.items, Dispatch.item] using horder
        · simpa [line, posted, reading, Post.items, Dispatch.item] using hcalls
        · intro hnone
          rw [hlooper] at hnone
          cases hnone
        · rintro item' ⟨⟩
        · intro hpending hready
          exact (h.due hpending hready).mono (fun p hp => List.mem_append_left _ hp)
            (Nat.le_refl _) rfl
      · next hlooper =>
        obtain ⟨hqueue, hmain⟩ := h.posts (Bool.eq_false_iff.mpr hlooper)
        refine { h with order := ?_, calls := ?_, alone := ?_ }
        · simpa [line, posted, reading, Controller.frames, Dispatch.item] using horder
        · simpa [line, posted, reading, Dispatch.item] using hcalls
        · intro item' _
          simp [posted, hqueue, hmain, Main.held]
    | queueing item =>
      -- It goes to the end of what is pending, past what is posted: no announcement is there.
      obtain ⟨hheld, hposted⟩ := h.alone item hreader
      rw [posted] at hposted
      refine { h with order := ?_, calls := ?_, alone := ?_, due := ?_ }
      · simpa [dispatched, line, posted, reading, Controller.frames, Dispatch.item, hheld, hposted]
          using horder
      · intro call
        refine Eq.trans ?_ (hcalls call)
        simp [dispatched, line, posted, reading, Dispatch.item]
        omega
      · rintro item' ⟨⟩
      · intro _ hready
        exact hok item hreader hready

theorem split_at {α : Type*} {l : List α} {k : ℕ} {a : α} (h : l[k]? = some a) :
    l = l.take k ++ a :: l.drop (k + 1) := by
  obtain ⟨hk, rfl⟩ := List.getElem?_eq_some_iff.mp h
  rw [← List.drop_eq_getElem_cons hk, List.take_append_drop]

/-- A launch posts its action, or queues it. -/
theorem kept_launcher (h : c.Kept) {k : ℕ} (hok : c.Orderly J (.launcher k)) :
    (c.next J (.launcher k)).Kept := by
  simp only [next]
  split
  · exact h
  · next d hget =>
    have hsplit := split_at hget
    generalize c.launchers.take k = before at hsplit ⊢
    generalize c.launchers.drop (k + 1) = after at hsplit ⊢
    have horder := h.order
    have hcalls := h.calls
    have hown := h.launchers
    rw [hsplit, List.forall_mem_append, List.forall_mem_cons] at hown
    obtain ⟨hbefore, htext, hafter⟩ := hown
    simp only [line, posted, reading, hsplit] at horder hcalls
    cases d with
    | start item =>
      simp only [Dispatch.item] at htext
      simp only [dispatched]
      split
      · next hlooper =>
        refine { h with
          order := ?_, calls := ?_, launchers := ?_, posts := ?_, alone := ?_, due := ?_ }
        · simpa [line, posted, reading, Controller.frames, Post.items, htext] using horder
        · intro call
          refine Eq.trans ?_ (hcalls call)
          simp [line, posted, reading, Post.items, Dispatch.item]
          omega
        · exact List.forall_mem_append.mpr ⟨hbefore, hafter⟩
        · intro hnone
          rw [hlooper] at hnone
          cases hnone
        · intro item' hreader
          obtain ⟨hheld, hposted⟩ := h.alone item' hreader
          refine ⟨hheld, ?_⟩
          rw [posted] at hposted
          simpa [posted, Post.items, htext] using hposted
        · intro hpending hready
          exact (h.due hpending hready).mono (fun p hp => List.mem_append_left _ hp)
            (Nat.le_refl _) rfl
      · refine { h with order := ?_, calls := ?_, launchers := ?_ }
        · simpa [line, posted, reading, Controller.frames] using horder
        · intro call
          have hcall := hcalls call
          simpa [line, posted, reading, Dispatch.item] using hcall
        · exact List.forall_mem_append.mpr ⟨hbefore, List.forall_mem_cons.mpr ⟨htext, hafter⟩⟩
    | queueing item =>
      simp only [Dispatch.item] at htext
      refine { h with order := ?_, calls := ?_, launchers := ?_, due := ?_ }
      · simpa [dispatched, line, posted, reading, Controller.frames, htext] using horder
      · intro call
        refine Eq.trans ?_ (hcalls call)
        simp [dispatched, line, posted, reading, Dispatch.item]
        omega
      · exact List.forall_mem_append.mpr ⟨hbefore, hafter⟩
      · intro _ hready
        exact hok item hget hready

/-- A launch is one more call. -/
theorem kept_launch (h : c.Kept) (apkPath packageName activityName applicationName :
    Option JavaString) :
    (c.next J (.launch apkPath packageName activityName applicationName)).Kept := by
  simp only [next]
  split
  · exact h
  · next l hlaunch =>
    rw [launchApp_sent hlaunch, told]
    refine { h with calls := ?_, launchers := ?_ }
    · intro call
      have hcall := h.calls call
      have hnew : ∀ items : List Item,
          (callsOf (items ++ [⟨.launched c.calls, l.action⟩])).count call =
            (callsOf items).count call + if call = c.calls then 1 else 0 := by
        intro items
        rw [callsOf_append, List.count_append, callsOf_cons, callsOf_nil]
        change _ + List.count call [c.calls] = _
        rw [List.count_singleton]
        by_cases heq : call = c.calls
        · rw [if_pos heq, if_pos (beq_iff_eq.mpr heq.symm)]
        · rw [if_neg heq, if_neg fun hbeq => heq (beq_iff_eq.mp hbeq).symm]
      change (callsOf (c.line ++ List.map Dispatch.item (c.launchers ++ [_]))).count call =
        if call < c.calls + 1 then 1 else 0
      rw [List.map_append, ← List.append_assoc]
      refine (hnew _).trans ?_
      rw [hcall]
      split <;> split <;> split <;> omega
    · refine List.forall_mem_append.mpr ⟨h.launchers, fun d hd => ?_⟩
      rw [List.mem_singleton.mp hd]
      rfl

/-- A registration makes the main thread ready and owes a flush. -/
theorem kept_register (h : c.Kept) :
    ({ c with mainReady := true, flushers := c.flushers + 1 } : Controller).Kept :=
  { h with due := fun _ _ => .inr (.inl (Nat.succ_pos _)) }

/-- And the flush is posted, where there is a looper. -/
theorem kept_flush (h : c.Kept) (hok : c.Orderly J .flush) : (c.next J .flush).Kept := by
  have horder := h.order
  have hcalls := h.calls
  simp only [line, posted] at horder hcalls
  simp only [next, flushPendingActions]
  split
  · exact h
  · next hsome =>
    split
    · next hlooper =>
      refine { h with order := ?_, calls := ?_, posts := ?_, alone := ?_, due := ?_ }
      · simpa [line, posted, reading, Controller.frames, Post.items] using horder
      · simpa [line, posted, reading, Post.items] using hcalls
      · intro hnone
        rw [hlooper] at hnone
        cases hnone
      · intro item hreader
        have halone := h.alone item hreader
        simpa [posted, Post.items] using halone
      · intro _ _
        exact .inl (List.mem_append_right _ (List.mem_singleton_self _))
    · next hlooper =>
      -- Nobody is woken: nothing may be pending, or another flush must come.
      have hmain := (h.posts (Bool.eq_false_iff.mpr hlooper)).2
      refine { h with due := ?_ }
      intro hpending _
      rcases hok with hl | hnil | hflushers
      · exact absurd hl hlooper
      · rw [hmain] at hpending
        rcases hpending with hp | hp
        · exact absurd hnil hp
        · exact absurd rfl hp
      · refine .inr (.inl ?_)
        change 0 < c.flushers - 1
        omega

theorem isReadyFor_ready (hasActivity : Bool) (next : DeviceAction) :
    isReadyFor true hasActivity next = true := by
  rw [isReadyFor]
  split <;> rfl

/-- The main thread takes its next message. -/
theorem kept_message (h : c.Kept) {hasActivity : Bool} (hok : c.Orderly J (.main hasActivity))
    (hmain : c.main = .idle) : (c.turn hasActivity).Kept := by
  have horder := h.order
  have hcalls := h.calls
  have hlooper : c.queue ≠ [] → c.looper ≠ false := fun hne hnone => hne (h.posts hnone).1
  have halone := h.alone
  simp only [turn, hmain]
  split
  · exact h
  · next item queue hqueue =>
    simp only [line, posted, hmain, hqueue] at horder hcalls halone
    rw [hqueue] at hlooper
    have hlooper' := hlooper (List.cons_ne_nil _ _)
    -- Behind a reader that found no looper the message is a launch's.
    have hrest : ∀ item', c.reader = some (.queueing item') →
        item.text = none ∧ texts (queue.flatMap Post.items) = [] := by
      intro item' hreader
      simpa [Post.items] using (halone item' hreader).2
    split
    · next hready =>
      refine { h with order := ?_, calls := ?_, posts := ?_, alone := ?_, due := ?_ }
      · by_cases htext : item.text = none
        · simpa [line, posted, reading, Controller.frames, Post.items, Main.taken, Main.held, htext]
            using horder
        · have hpending := hok item queue hmain hqueue hready htext
          simpa [line, posted, reading, Controller.frames, Post.items, Main.taken, Main.held,
            hpending] using horder
      · intro call
        refine Eq.trans ?_ (hcalls call)
        simp [line, posted, reading, Post.items, Main.taken, Main.held]
        omega
      · exact fun hnone => absurd hnone hlooper'
      · exact fun item' hreader => ⟨rfl, (hrest item' hreader).2⟩
      · exact fun _ _ => .inr (.inr rfl)
    · next hready =>
      refine { h with order := ?_, calls := ?_, posts := ?_, alone := ?_, due := ?_ }
      · simpa [line, posted, reading, Controller.frames, Post.items, Main.taken, Main.held]
          using horder
      · simpa [line, posted, reading, Post.items, Main.taken, Main.held] using hcalls
      · exact fun hnone => absurd hnone hlooper'
      · intro item' hreader
        obtain ⟨htext, hposted⟩ := hrest item' hreader
        exact ⟨by simp [Main.held, htext], hposted⟩
      · intro _ hmainReady
        rw [show c.mainReady = true from hmainReady, isReadyFor_ready] at hready
        exact absurd rfl hready
  · next queue hqueue =>
    simp only [line, posted, hmain, hqueue] at horder hcalls halone
    rw [hqueue] at hlooper
    have hlooper' := hlooper (List.cons_ne_nil _ _)
    split
    · next hnothing =>
      refine { h with order := ?_, calls := ?_, posts := ?_, alone := ?_, due := ?_ }
      · simpa [line, posted, reading, Controller.frames, Post.items, hmain] using horder
      · simpa [line, posted, reading, Post.items, hmain] using hcalls
      · exact fun hnone => absurd hnone hlooper'
      · intro item' hreader
        simpa [posted, Post.items, hmain] using halone item' hreader
      · intro hpending hready
        rcases hnothing with hnone | hnil
        · rw [show c.mainReady = true from hready] at hnone
          cases hnone
        · rcases hpending with hp | hp
          · exact absurd hnil hp
          · exact absurd rfl hp
    · refine { h with order := ?_, calls := ?_, posts := ?_, alone := ?_, due := ?_ }
      · simpa [line, posted, reading, Controller.frames, Post.items, Main.taken, Main.held]
          using horder
      · simpa [line, posted, reading, Post.items, Main.taken, Main.held] using hcalls
      · exact fun hnone => absurd hnone hlooper'
      · intro item' hreader
        simpa [posted, Post.items, Main.held] using halone item' hreader
      · rintro (hp | hp)
        · exact absurd rfl hp
        · exact absurd rfl hp

/-- The main thread goes on. -/
theorem kept_turn (h : c.Kept) {hasActivity : Bool} (hok : c.Orderly J (.main hasActivity)) :
    (c.turn hasActivity).Kept := by
  have horder := h.order
  have hcalls := h.calls
  have halone := h.alone
  have hdue := h.due
  have hlooper : c.main ≠ .idle → c.looper ≠ false := fun hne hnone => hne (h.posts hnone).2
  cases hmain : c.main with
  | idle => exact kept_message h hok hmain
  | queueing item =>
    simp only [line, posted, hmain] at horder hcalls halone
    rw [hmain] at hdue hlooper
    simp only [turn, hmain]
    refine { h with order := ?_, calls := ?_, posts := ?_, alone := ?_, due := ?_ }
    · simpa [line, posted, reading, Controller.frames, Main.taken, Main.held] using horder
    · simpa [line, posted, reading, Main.taken, Main.held] using hcalls
    · exact fun hnone => absurd hnone (hlooper (by simp))
    · exact fun item' hreader => ⟨rfl, (halone item' hreader).2⟩
    · intro _ hready
      rcases hdue (.inr (List.cons_ne_nil _ _)) hready with hd | hd | hd
      · exact .inl hd
      · exact .inr (.inl hd)
      · rw [hmain] at hd
        cases hd
  | applied =>
    simp only [line, posted, hmain] at horder hcalls halone
    rw [hmain] at hlooper
    have htrue : c.looper = true := Bool.ne_false_iff.mp (hlooper (by simp))
    simp only [turn, hmain, flushPendingActions, htrue, if_true]
    refine { h with order := ?_, calls := ?_, posts := ?_, alone := ?_, due := ?_ }
    · simpa [line, posted, reading, Controller.frames, Post.items, Main.taken, Main.held]
        using horder
    · simpa [line, posted, reading, Post.items, Main.taken, Main.held] using hcalls
    · exact fun hnone => absurd (show true = false from hnone) (by simp)
    · intro item' hreader
      simpa [posted, Post.items, Main.held] using halone item' hreader
    · exact fun _ _ => .inl (List.mem_append_right _ (List.mem_singleton_self _))
  | flushing rest =>
    simp only [line, posted, hmain] at horder hcalls halone
    rw [hmain] at hdue hlooper
    have hkeep : ∀ main : Main, main.held = [] → c.pending ≠ [] ∨ main.held ≠ [] →
        c.mainReady = true → .flush ∈ c.queue ∨ 0 < c.flushers ∨ main = .applied := by
      intro main hheld hpending hready
      rw [hheld] at hpending
      rcases hdue (hpending.imp_right fun hp => absurd rfl hp) hready with hd | hd | hd
      · exact .inl hd
      · exact .inr (.inl hd)
      · rw [hmain] at hd
        cases hd
    cases rest with
    | nil =>
      simp only [turn, hmain]
      refine { h with order := ?_, calls := ?_, posts := ?_, alone := ?_, due := ?_ }
      · simpa [line, posted, reading, Controller.frames, Main.taken, Main.held] using horder
      · simpa [line, posted, reading, Main.taken, Main.held] using hcalls
      · exact fun hnone => absurd hnone (hlooper (by simp))
      · exact fun item' hreader => ⟨rfl, (halone item' hreader).2⟩
      · exact hkeep .idle rfl
    | cons item rest =>
      simp only [turn, hmain]
      refine { h with order := ?_, calls := ?_, posts := ?_, alone := ?_, due := ?_ }
      · simpa [line, posted, reading, Controller.frames, Main.taken, Main.held] using horder
      · simpa [line, posted, reading, Main.taken, Main.held] using hcalls
      · exact fun hnone => absurd hnone (hlooper (by simp))
      · exact fun item' hreader => ⟨rfl, (halone item' hreader).2⟩
      · exact hkeep (.flushing rest) rfl

/-- **Every step in order keeps the line.** -/
theorem kept_next (h : c.Kept) (e : Event) (hok : c.Orderly J e) : (c.next J e).Kept := by
  cases e with
  | action payload => exact kept_act h payload
  | restart =>
    have hframes : (c.next J .restart).frames = c.frames := by
      simp only [next, Controller.frames]
      cases c.stream <;> rfl
    refine { h with order := ?_ }
    rw [hframes]
    exact h.order
  | subscribe =>
    simp only [next]
    split
    · next hnone =>
      refine { h with order := ?_ }
      have horder := h.order
      rw [Controller.frames, hnone] at horder
      exact horder
    · exact h
  | read => exact kept_read h hok
  | ended =>
    simp only [next]
    split
    · next hended => exact kept_ended h hended.2
    · exact h
  | dispatch => exact kept_dispatch h hok
  | launch apkPath packageName activityName applicationName => exact kept_launch h _ _ _ _
  | launcher k => exact kept_launcher h hok
  | prepareLooper =>
    exact { h with posts := fun hnone => absurd (show true = false from hnone) (by simp) }
  | register => exact kept_register h
  | flush => exact kept_flush h hok
  | main hasActivity => exact kept_turn h hok

/-- A line that is kept is faithful. -/
theorem Kept.faithful (h : c.Kept) : c.Faithful := by
  have horder := h.order
  have hcalls := h.calls
  simp only [line] at horder hcalls
  refine ⟨?_, fun call => ?_, fun hrest => ?_⟩
  · rw [← horder]
    simp only [texts_append, List.append_assoc]
    exact List.prefix_append _ _
  · rw [← hcalls call]
    simp only [callsOf_append, List.count_append]
    omega
  · -- The main thread is ready and no flush is due, so nothing is pending.
    have hpending : c.pending = [] := by
      by_contra hne
      rcases h.due (.inl hne) hrest.ready with hd | hd | hd
      · rw [hrest.queue] at hd
        cases hd
      · rw [hrest.flushers] at hd
        cases hd
      · rw [hrest.main] at hd
        cases hd
    have hline : c.line = c.handed := by
      simp [line, posted, reading, hrest.main, Main.taken, Main.held, hpending, hrest.queue,
        hrest.reader]
    constructor
    · have h' := h.order
      rwa [hline, hrest.read, List.append_nil] at h'
    · intro call
      have h' := h.calls call
      rwa [hline, hrest.launchers, List.map_nil, List.append_nil] at h'

end Controller

/-- **Nothing is lost and nothing is repeated, in every run in order.**
Whatever the daemon's state when the process starts, and whatever other
clients, restarts and launches interleave: where every step is in order,
every state of the run is faithful. -/
theorem actions_handed (J : JavaLibrary) (device : DeviceState) (es : List Event)
    (h : Meets (Controller.next J) (Controller.Orderly J) (Controller.start device) es) :
    Throughout (Controller.next J) Controller.Faithful (Controller.start device) es :=
  (throughout_of_invariant (K := Controller.Kept)
    (fun _ e hk hok => Controller.kept_next hk e hok) (Controller.kept_start device) h).mono
    fun _ => Controller.Kept.faithful

/-- Another client sends the device home, on a stream this process reads. -/
def homeHeard : List Event :=
  [.prepareLooper, .register, .flush, .main true, .subscribe, .action (ascii "home"), .read,
    .dispatch, .main true]

theorem actions_handed_homeHeard :
    Throughout (Controller.next asciiLibrary) Controller.Faithful (Controller.start {})
      homeHeard := by
  refine actions_handed asciiLibrary {} homeHeard ⟨trivial, trivial, .inl rfl, ?_, trivial, trivial,
    ?_, ?_, ?_, trivial⟩
  · exact fun _ _ _ _ _ _ => rfl
  · intro text frames alive _ hstream
    have htext : text = deviceStateReply { generation := 1, action := ascii "home" } :=
      (List.cons.inj (Stream.mk.inj (Option.some.inj hstream)).1).1.symm
    have hread : ((echo asciiLibrary 0 (deviceStateReply
        { generation := 1, action := ascii "home" })).map DeviceAction.generation) = some 1 := by
      decide +kernel
    obtain ⟨next, hnext, hgeneration⟩ := Option.map_eq_some_iff.mp hread
    refine ⟨next, htext ▸ hnext, ?_⟩
    rw [hgeneration]
    decide
  · intro item hreader
    have hstart : (Controller.reader _).map (fun
      | Dispatch.start _ => true
      | Dispatch.queueing _ => false) = some false := congrArg _ hreader
    exact absurd hstart (by decide +kernel)
  · exact fun _ _ _ _ _ _ => by decide +kernel

/-! ## A launch hides an action -/

/-- Another client sends the device home after this process has launched an
app, on a stream it has read to the end. -/
def launchThenHome : List Event :=
  [.prepareLooper, .register, .flush, .main true, .subscribe,
    .launch none (some (java "app")) none none, .launcher 0, .main true, .main true, .main true,
    .action (ascii "home"), .read]

/-- **The action home is lost.** The launch has moved the counter to the
number the daemon gives it. -/
theorem home_lost :
    ¬∀ (device : DeviceState) (es : List Event),
      Throughout (Controller.next asciiLibrary) Controller.Faithful (Controller.start device)
        es := by
  intro hall
  have hlast := (hall {} launchThenHome).last
  have hrest :
      (run (Controller.next asciiLibrary) (Controller.start {}) launchThenHome).AtRest := by
    constructor <;> decide +kernel
  have hhanded := (hlast.complete hrest).1
  revert hhanded
  decide +kernel

end Framework

end Muplar
