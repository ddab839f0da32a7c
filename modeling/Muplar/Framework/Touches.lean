import Muplar.Framework.Tasks
/-!
# The framework — touches on their way

The daemon's input stream is read by a thread of its own; what it lets
through reaches `applyInputOnMain` on the main thread, through the queue of
pending inputs and the messages of the main looper. There the activity an
input goes to is chosen anew for each input, from the tab it names and from
what is in the foreground at that moment. A touch event is made for it,
unless the input ends a swipe on the launcher, and the activity receives
the event, and once more from its decor view where it did not consume it.

The activities are those of `Tasks`; the launches and actions that move
them come at any time.
-/

namespace Muplar

namespace Framework

namespace Touch

variable {φ : Type}

/-! ## Inputs -/

/-- What is read of a `DeviceInput`; `type` is 1 for a key and 2 for a
motion. -/
structure DeviceInput (φ : Type) where
  generation : Int64
  tab : JavaString := []
  type : Int32 := 2
  action : Int32
  x : φ
  y : φ
  deriving DecidableEq

def actionDown : Int32 := 0
def actionUp : Int32 := 1
def actionMove : Int32 := 2
def actionCancel : Int32 := 3

/-- `ACTION_UP` and `ACTION_CANCEL`. -/
def ends (action : Int32) : Bool :=
  action = actionUp || action = actionCancel

/-- What is taken from the platform: the lower case of a string, the
arithmetic of floats, and whether a decor view hands the events it gets to
its activity. -/
structure Platform (φ : Type) where
  toLowerCase : JavaString → JavaString
  forwards : Bool
  sub : φ → φ → φ
  abs : φ → φ
  lt : φ → φ → Bool
  sixty : φ
  minusSixty : φ

/-- How an activity takes a touch event. -/
inductive Reply
  | consumed
  | ignored
  | threw
  deriving DecidableEq

/-- What is met while the main thread goes on: the time, the answer to a
touch event, and what actions are answered. -/
structure Turn where
  now : Int64 := 1
  reply : Reply := .consumed
  answers : Backstack.Answers := {}

/-! ## Threads and messages -/

/-- The reader in `dispatchInput`: at its beginning, and after it has found
no looper. -/
inductive Dispatch (φ : Type)
  | start (input : DeviceInput φ)
  | queueing (input : DeviceInput φ)
  deriving DecidableEq

/-- The messages of the main looper that have to do with inputs: the
runnables of `dispatchInput`, `flushPendingInputs` and
`flushPendingActions`. -/
inductive Post (φ : Type)
  | input (input : DeviceInput φ)
  | flushInputs
  | flushActions
  deriving DecidableEq

/-- What the main thread is in the middle of. -/
inductive Main (φ : Type)
  | idle
  /-- it was not ready for the input -/
  | queueing (input : DeviceInput φ)
  /-- it has applied an input, and is to flush the pending ones -/
  | applied
  | flushing (rest : List (DeviceInput φ))
  | applying (rest : List DeviceAction)
  deriving DecidableEq

/-- `FrameworkDeviceController`, as far as inputs go. What the stream
offered, what was let through, what was handed to `applyInputOnMain` and
what touch events the activities received are kept as they come. -/
structure Controller (φ : Type) where
  back : Backstack := {}
  inputGeneration : Int64 := 0
  reader : Option (Dispatch φ) := none
  looper : Bool := false
  mainReady : Bool := false
  flushers : ℕ := 0
  pendingActions : List DeviceAction := []
  pendingInputs : List (DeviceInput φ) := []
  queue : List (Post φ) := []
  main : Main φ := .idle
  pointerDownTime : Int64 := 0
  pointerDownX : φ
  pointerDownY : φ
  offered : List (DeviceInput φ) := []
  accepted : List (DeviceInput φ) := []
  handed : List (DeviceInput φ) := []
  received : List (ℕ × Int32) := []

/-- What may happen next, in any order. -/
inductive Event (φ : Type)
  /-- `applyInput` is called with what the stream has next. -/
  | input (input : DeviceInput φ)
  /-- The reader goes on in `dispatchInput`. -/
  | dispatch
  /-- The main looper comes to be. -/
  | prepareLooper
  /-- Activities come, go or change places; an action that is applied at once
  is one of these events. -/
  | moved (e : Backstack.Event)
  /-- `queueAction`. -/
  | queueAction (action : DeviceAction)
  /-- One of the calls of `flushPendingActions`. -/
  | flush
  /-- The main thread goes on. -/
  | main (t : Turn)

namespace Controller

variable (P : Platform φ)

/-! ## One input -/

/-- The pointer goes down, or is taken to. -/
def press (c : Controller φ) (now : Int64) (i : DeviceInput φ) : Controller φ :=
  if i.action = actionDown ∨ c.pointerDownTime = 0 then
    { c with pointerDownTime := now, pointerDownX := i.x, pointerDownY := i.y }
  else c

/-- The input is far above or below where the pointer went down. -/
def isVertical (c : Controller φ) (i : DeviceInput φ) : Bool :=
  let dy := P.sub i.y c.pointerDownY
  let dx := P.abs (P.sub i.x c.pointerDownX)
  P.lt P.sixty (P.abs dy) && P.lt dx (P.abs dy)

/-- The same question as it is asked once the event was delivered. -/
def isFling (c : Controller φ) (i : DeviceInput φ) : Bool :=
  let dy := P.sub i.y c.pointerDownY
  let dx := P.abs (P.sub i.x c.pointerDownX)
  (P.lt dy P.minusSixty && P.lt dx (P.abs dy)) || (P.lt P.sixty dy && P.lt dx (P.abs dy))

/-- The input ends a swipe on the launcher: no touch event is made. -/
def swipes (c : Controller φ) (r : ℕ) (i : DeviceInput φ) : Bool :=
  i.action = actionUp && (c.back.records r).tab = java "launcher" && 0 < c.pointerDownTime &&
    c.isVertical P i

/-- The events an activity receives: the second is by way of its decor
view. -/
def events (r : ℕ) (action : Int32) (reply : Reply) : List (ℕ × Int32) :=
  (r, action) :: if reply = .ignored ∧ P.forwards = true then [(r, action)] else []

/-- The end of `dispatchMotionInput`. -/
def release (c : Controller φ) (r : ℕ) (i : DeviceInput φ) (reached : Bool) : Controller φ :=
  if ends i.action then
    { c with
      back :=
        if (c.back.records r).tab = java "launcher" ∧ 0 < c.pointerDownTime ∧ c.isFling P i then
          c.back.goToState r reached
        else c.back
      pointerDownTime := 0 }
  else c

/-- `dispatchMotionInput`. -/
def dispatchMotionInput (c : Controller φ) (r : ℕ) (i : DeviceInput φ) (t : Turn) :
    Controller φ :=
  let c := c.press t.now i
  if c.swipes P r i then
    { c with pointerDownTime := 0, back := c.back.goToState r t.answers.reached }
  else
    { c with received := c.received ++ events P r i.action t.reply }.release P r i
      t.answers.reached

/-- The record an input goes to, where it has an activity. -/
def target (c : Controller φ) (i : DeviceInput φ) : Option ℕ :=
  (c.back.inputRecord i.tab).filter fun r => (c.back.records r).activity

/-- The record comes to the front. -/
def aim (c : Controller φ) (i : DeviceInput φ) : Controller φ :=
  { c with back := c.back.applyInputOnMain i.tab }

/-- `applyInputOnMain`. -/
def applyInputOnMain (c : Controller φ) (i : DeviceInput φ) (t : Turn) : Controller φ :=
  let c := { c with handed := c.handed ++ [i] }
  match c.target i with
  | none => c
  | some r => if i.type = 2 then (c.aim i).dispatchMotionInput P r i t else c.aim i

/-! ## The threads -/

/-- `applyInput`, up to `dispatchInput`. -/
def applyInput (c : Controller φ) (i : DeviceInput φ) : Controller φ :=
  if c.reader.isSome then c
  else if i.generation ≤ c.inputGeneration then { c with offered := c.offered ++ [i] }
  else
    { c with
      inputGeneration := i.generation
      offered := c.offered ++ [i]
      accepted := c.accepted ++ [i]
      reader := some (.start i) }

/-- `dispatchInput`. -/
def dispatchInput (c : Controller φ) : Controller φ :=
  match c.reader with
  | none => c
  | some (.start i) =>
    if c.looper then { c with queue := c.queue ++ [.input i], reader := none }
    else { c with reader := some (.queueing i) }
  | some (.queueing i) => { c with pendingInputs := c.pendingInputs ++ [i], reader := none }

/-- `flushPendingInputs`. -/
def flushPendingInputs (c : Controller φ) : Controller φ :=
  if c.looper then { c with queue := c.queue ++ [.flushInputs] } else c

/-- `flushPendingActions`. -/
def flushPendingActions (c : Controller φ) : Controller φ :=
  if c.looper then { c with queue := c.queue ++ [.flushActions] } else c

/-- Whether `registerActivityForTab` was called on the way. -/
def registers (c : Controller φ) (back : Backstack) : Bool :=
  c.back.nextRecord < back.nextRecord

/-- The activities have moved; `registerActivityForTab` makes the main
thread ready and calls `flushPendingActions`. -/
def moveTo (c : Controller φ) (back : Backstack) : Controller φ :=
  { c with
    back
    mainReady := c.mainReady || c.registers back
    flushers := c.flushers + if c.registers back then 1 else 0 }

/-- An event of the activities; the runnable that applies an action calls
`flushPendingActions` after it. -/
def move (c : Controller φ) : Backstack.Event → Controller φ
  | .input _ => c
  | .action next answers =>
    let c := c.moveTo (c.back.next P.toLowerCase (.action next answers))
    { c with flushers := c.flushers + 1 }
  | e => c.moveTo (c.back.next P.toLowerCase e)

/-- The main thread goes on. -/
def turn (c : Controller φ) (t : Turn) : Controller φ :=
  match c.main with
  | .idle =>
    match c.queue with
    | [] => c
    | .input i :: queue =>
      if c.mainReady then { c with queue, main := .applied }.applyInputOnMain P i t
      else { c with queue, main := .queueing i }
    | .flushInputs :: queue =>
      if c.mainReady = false ∨ c.pendingInputs = [] then { c with queue }
      else { c with queue, pendingInputs := [], main := .flushing c.pendingInputs }
    | .flushActions :: queue =>
      if c.mainReady = false ∨ c.pendingActions = [] then { c with queue }
      else { c with queue, pendingActions := [], main := .applying c.pendingActions }
  | .queueing i => { c with pendingInputs := c.pendingInputs ++ [i], main := .idle }
  | .applied => { c.flushPendingInputs with main := .idle }
  | .flushing [] => { c with main := .idle }
  | .flushing (i :: rest) => { c with main := .flushing rest }.applyInputOnMain P i t
  | .applying [] => { c.flushPendingInputs with main := .idle }
  | .applying (next :: rest) =>
    { c with main := .applying rest }.moveTo
      (c.back.applyActionOnMain P.toLowerCase next t.answers)

/-- One event. -/
def next (c : Controller φ) : Event φ → Controller φ
  | .input i => c.applyInput i
  | .dispatch => c.dispatchInput
  | .prepareLooper => { c with looper := true }
  | .moved e => c.move P e
  | .queueAction action => { c with pendingActions := c.pendingActions ++ [action] }
  | .flush =>
    if c.flushers = 0 then c else { c.flushPendingActions with flushers := c.flushers - 1 }
  | .main t => c.turn P t

end Controller

/-! ## Gestures -/

/-- Whether a gesture is open after an action; `none` where the action has
no place. -/
def gestureStep (isOpen : Bool) (action : Int32) : Option Bool :=
  if action = actionDown then if isOpen then none else some true
  else if action = actionMove then if isOpen then some true else none
  else if ends action then if isOpen then some false else none
  else none

/-- **Complete gestures**, and the beginning of another where it is `true`;
`none` where the actions are not that. -/
def gesture (actions : List Int32) : Option Bool :=
  actions.foldlM gestureStep false

/-- The actions of the motion inputs. -/
def touches (inputs : List (DeviceInput φ)) : List Int32 :=
  inputs.filterMap fun i => if i.type = 2 then some i.action else none

namespace Controller

/-- The process starts. -/
def start (x y : φ) : Controller φ :=
  { pointerDownX := x, pointerDownY := y }

/-- What the stream offered is gestures, the last one perhaps not ended
yet. -/
def Offered (c : Controller φ) : Prop :=
  (gesture (touches c.offered)).isSome

/-- The touch events an activity received. -/
def receivedBy (c : Controller φ) (r : ℕ) : List Int32 :=
  (c.received.filter (·.1 = r)).map Prod.snd

/-- An activity has received a DOWN that was not ended. -/
def Holds (c : Controller φ) (r : ℕ) : Prop :=
  gesture (c.receivedBy r) = some true

/-- **Nothing is left to do**: no thread is under way, and the main thread
is ready and has no message. -/
structure AtRest (c : Controller φ) : Prop where
  reader : c.reader = none
  flushers : c.flushers = 0
  queue : c.queue = []
  main : c.main = .idle
  ready : c.mainReady = true

/-- **Touches reach the activities complete and in order.** Inputs are
applied in the order they were let through, each at most once, and when
nothing is left to do all were; the touch events each activity received are
gestures, and are complete when nothing is left to do and the inputs
were. -/
structure Faithful (c : Controller φ) : Prop where
  inOrder : c.handed <+: c.accepted
  increasing : (c.handed.map DeviceInput.generation).Pairwise (· < ·)
  applied : c.AtRest → c.handed = c.accepted
  gestures : ∀ r, (gesture (c.receivedBy r)).isSome
  complete : c.AtRest → gesture (touches c.accepted) = some false →
    ∀ r, gesture (c.receivedBy r) = some false

end Controller

end Touch

end Framework

end Muplar
