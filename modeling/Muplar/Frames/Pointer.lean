import Mathlib.Algebra.Group.Defs
import Mathlib.Data.Int.Cast.Basic
import Mathlib.Data.Nat.Cast.Defs
import Muplar.Common.Run
/-!
# Frames — the pointer of the device shell

The mouse and the scroll wheel share one emulated pointer. The mouse sends
what happens inside of the frame view and drops the rest; a scroll gesture
is a DOWN, MOVEs and an UP of its own, kept apart by a flag that the mouse
looks at only where the button goes down.

So a button that is released outside leaves the pointer down, one that goes
down outside leads to a MOVE without a DOWN, and a scroll gesture may begin
on top of the button's. The gestures of a run are well formed exactly where
none of this happens (`well_formed_iff`).
-/

namespace Muplar

namespace Frames

namespace Pointer

open Machine

/-- The actions of a pointer packet. -/
inductive Action
  | down
  | up
  | move
  deriving DecidableEq

/-- The numbers of `CGFloat`, with what the shell does with them. -/
class CGFloat (φ : Type) extends Zero φ, One φ, Add φ, Sub φ, Mul φ, Div φ, NatCast φ, BEq φ,
    LT φ, LE φ where
  decidableLt (x y : φ) : Decidable (x < y)
  decidableLe (x y : φ) : Decidable (x ≤ y)

instance decidableLT {φ : Type} [CGFloat φ] : DecidableLT φ := CGFloat.decidableLt

instance decidableLE {φ : Type} [CGFloat φ] : DecidableLE φ := CGFloat.decidableLe

local instance : CGFloat ℤ where
  toZero := ⟨Int.ofNat 0⟩
  toOne := ⟨Int.ofNat 1⟩
  toBEq := @instBEqOfDecidableEq ℤ Int.instDecidableEq
  decidableLt x y := Int.decLt x y
  decidableLe x y := Int.decLe x y

/-- A point, a size or a distance. -/
structure Pair (φ : Type) where
  x : φ
  y : φ

structure Packet (φ : Type) where
  action : Action
  x : φ
  y : φ

/-- `NSEventPhase`. -/
inductive Phase
  | none
  | began
  | stationary
  | changed
  | ended
  | cancelled
  | mayBegin
  deriving DecidableEq

/-- The frame view as an event finds it: the size of its bounds, and of the
last frame. -/
structure View (φ : Type) where
  bounds : Pair φ
  framePixelWidth : ℕ
  framePixelHeight : ℕ

/-- A scroll-wheel event, its location in the view. -/
structure Wheel (φ : Type) where
  location : Pair φ
  hasPreciseScrollingDeltas : Bool
  scrollingDelta : Pair φ
  delta : Pair φ
  phase : Phase
  momentumPhase : Phase

/-- What reaches the shell. -/
inductive Event (φ : Type)
  | mouseDown (view : View φ) (point : Pair φ)
  | mouseDragged (view : View φ) (point : Pair φ)
  | mouseUp (view : View φ) (point : Pair φ)
  | scrollWheel (view : View φ) (wheel : Wheel φ)
  | scrollEndTimer

/-- The shell, as far as the pointer is concerned. -/
structure Shell (φ : Type) where
  /-- a client is connected, or there is an input handler -/
  listening : Bool
  scrollActive : Bool
  scrollCurrentPoint : Pair φ
  /-- the timer is scheduled -/
  scrollEndTimer : Bool
  /-- the packets that were sent, the last one first -/
  sent : List (Packet φ)
  /-- the button of the mouse, which the shell does not keep -/
  buttonDown : Bool

/-- A shell to which nothing has happened. -/
def Shell.start {φ : Type} (listening : Bool) (origin : Pair φ) : Shell φ :=
  ⟨listening, false, origin, false, [], false⟩

section

variable {φ : Type} [CGFloat φ]

namespace View

def flat (v : View φ) : Bool :=
  decide (v.bounds.x ≤ 0) || decide (v.bounds.y ≤ 0)

def outside (v : View φ) (p : Pair φ) : Bool :=
  decide (p.x < 0) || decide (p.y < 0) || decide (v.bounds.x < p.x) || decide (v.bounds.y < p.y)

def scaleX (v : View φ) : φ :=
  if 0 < v.framePixelWidth then (v.framePixelWidth : φ) / v.bounds.x else 1

def scaleY (v : View φ) : φ :=
  if 0 < v.framePixelHeight then (v.framePixelHeight : φ) / v.bounds.y else 1

/-- A point of the view in pixels of the frame, from the top. -/
def toFrame (v : View φ) (p : Pair φ) : Pair φ :=
  ⟨p.x * v.scaleX, (v.bounds.y - p.y) * v.scaleY⟩

def maxW (v : View φ) : φ :=
  if 0 < v.framePixelWidth then (v.framePixelWidth : φ) else v.bounds.x

def maxH (v : View φ) : φ :=
  if 0 < v.framePixelHeight then (v.framePixelHeight : φ) else v.bounds.y

end View

namespace Wheel

def deltaX (w : Wheel φ) : φ :=
  if w.hasPreciseScrollingDeltas then w.scrollingDelta.x else w.delta.x * (30 : ℕ)

def deltaY (w : Wheel φ) : φ :=
  if w.hasPreciseScrollingDeltas then w.scrollingDelta.y else w.delta.y * (30 : ℕ)

end Wheel

/-- `std::max(0.0, std::min(max, value))`. -/
def clamp (max value : φ) : φ :=
  let least := if value < max then value else max
  if 0 < least then least else 0

namespace Shell

/-- `sendPointerAtX:y:action:`. -/
def sendPointerAt (s : Shell φ) (p : Pair φ) (action : Action) : Shell φ :=
  if s.listening then { s with sent := ⟨action, p.x, p.y⟩ :: s.sent } else s

/-- `sendPointerEvent:action:`. -/
def sendPointerEvent (s : Shell φ) (v : View φ) (p : Pair φ) (action : Action) : Shell φ :=
  if v.flat then s
  else if v.outside p then s
  else s.sendPointerAt (v.toFrame p) action

/-- `endScrollGesture`. -/
def endScrollGesture (s : Shell φ) : Shell φ :=
  let s := { s with scrollEndTimer := false }
  if s.scrollActive then
    sendPointerAt { s with scrollActive := false } s.scrollCurrentPoint .up
  else s

/-- The gesture begins where the mouse is. -/
def beginScroll (s : Shell φ) (v : View φ) (w : Wheel φ) : Shell φ :=
  sendPointerAt { s with scrollCurrentPoint := v.toFrame w.location, scrollActive := true }
    (v.toFrame w.location) .down

/-- It moves on, and begins if it has not. -/
def moveScroll (s : Shell φ) (v : View φ) (w : Wheel φ) : Shell φ :=
  let s := if !s.scrollActive then s.beginScroll v w else s
  let next : Pair φ :=
    ⟨clamp v.maxW (s.scrollCurrentPoint.x + w.deltaX * v.scaleX),
      clamp v.maxH (s.scrollCurrentPoint.y + w.deltaY * v.scaleY)⟩
  sendPointerAt { s with scrollCurrentPoint := next } next .move

/-- `handleScrollWheel:`. -/
def handleScrollWheel (s : Shell φ) (v : View φ) (w : Wheel φ) : Shell φ :=
  if v.flat then s
  else if v.outside w.location && !s.scrollActive then s
  else if w.momentumPhase ≠ .none ∧ w.phase = .none then
    if s.scrollActive then s.endScrollGesture else s
  else
    match w.phase with
    | .began => beginScroll { s with scrollEndTimer := false } v w
    | .changed => s.moveScroll v w
    | .ended | .cancelled => s.endScrollGesture
    | .none =>
      if w.deltaX == 0 && w.deltaY == 0 then s
      else { s.moveScroll v w with scrollEndTimer := true }
    | .stationary | .mayBegin => s

/-- What an event does. -/
def step (s : Shell φ) : Event φ → Shell φ
  | .mouseDown v p => { s.endScrollGesture.sendPointerEvent v p .down with buttonDown := true }
  | .mouseDragged v p => s.sendPointerEvent v p .move
  | .mouseUp v p => { s.sendPointerEvent v p .up with buttonDown := false }
  | .scrollWheel v w => s.handleScrollWheel v w
  | .scrollEndTimer => if s.scrollEndTimer then s.endScrollGesture else s

end Shell

end

/-! ## Gestures -/

section

variable {φ : Type}

/-- A pointer is down after these packets, the last one first. -/
def pointerDown : List (Packet φ) → Bool
  | [] => false
  | p :: _ => p.action ≠ .up

/-- DOWN comes where no pointer is down, MOVE and UP where one is. -/
def Alternates : List (Packet φ) → Prop
  | [] => True
  | p :: earlier => (p.action = .down ↔ pointerDown earlier = false) ∧ Alternates earlier

/-- **Well-formed gestures.** The packets alternate, and no pointer is left
down where neither the button is nor a scroll gesture is active. -/
structure WellFormed (s : Shell φ) : Prop where
  alternates : Alternates s.sent
  lifted : s.buttonDown = false → s.scrollActive = false → pointerDown s.sent = false

variable {s : Shell φ} {p : Pair φ} {action : Action}

/-- Where a pointer is down, something holds it. -/
theorem wellFormed_iff : WellFormed s ↔ Alternates s.sent ∧
    (pointerDown s.sent = true → s.buttonDown = true ∨ s.scrollActive = true) := by
  constructor
  · rintro ⟨halt, hlifted⟩
    refine ⟨halt, fun hdown => ?_⟩
    by_contra hfree
    rw [not_or, Bool.not_eq_true, Bool.not_eq_true] at hfree
    rw [hlifted hfree.1 hfree.2] at hdown
    cases hdown
  · rintro ⟨halt, hheld⟩
    refine ⟨halt, fun hbutton hactive => ?_⟩
    rw [Bool.eq_false_iff]
    intro hdown
    rcases hheld hdown with h | h
    · rw [hbutton] at h
      cases h
    · rw [hactive] at h
      cases h

theorem sent_sendPointerAt (h : s.listening = true) :
    (s.sendPointerAt p action).sent = ⟨action, p.x, p.y⟩ :: s.sent := by
  rw [Shell.sendPointerAt, if_pos h]

@[simp] theorem scrollActive_sendPointerAt :
    (s.sendPointerAt p action).scrollActive = s.scrollActive := by
  unfold Shell.sendPointerAt
  split <;> rfl

@[simp] theorem buttonDown_sendPointerAt :
    (s.sendPointerAt p action).buttonDown = s.buttonDown := by
  unfold Shell.sendPointerAt
  split <;> rfl

@[simp] theorem listening_sendPointerAt :
    (s.sendPointerAt p action).listening = s.listening := by
  unfold Shell.sendPointerAt
  split <;> rfl

/-- A packet of a kind is sent. -/
theorem alternates_sendPointerAt (h : s.listening = true) :
    Alternates (s.sendPointerAt p action).sent ↔
      (action = .down ↔ pointerDown s.sent = false) ∧ Alternates s.sent := by
  rw [sent_sendPointerAt h, Alternates]

theorem pointerDown_sendPointerAt (h : s.listening = true) :
    pointerDown (s.sendPointerAt p action).sent = decide (action ≠ .up) := by
  rw [sent_sendPointerAt h, pointerDown]

/-- Whoever listens goes on to, and nothing is sent to nobody. -/
structure Frame (s s' : Shell φ) : Prop where
  listening : s'.listening = s.listening
  sent : s.listening = false → s'.sent = s.sent

theorem Frame.refl : Frame s s := ⟨rfl, fun _ => rfl⟩

theorem Frame.trans {s' s'' : Shell φ} (h : Frame s s') (h' : Frame s' s'') : Frame s s'' :=
  ⟨h'.listening.trans h.listening, fun hl =>
    (h'.sent (h.listening.trans hl)).trans (h.sent hl)⟩

/-- A packet is sent after other fields have changed. -/
theorem frame_sendPointerAt {s₀ : Shell φ} (hlistening : s₀.listening = s.listening)
    (hsent : s₀.sent = s.sent) : Frame s (s₀.sendPointerAt p action) := by
  refine ⟨listening_sendPointerAt.trans hlistening, fun hl => ?_⟩
  rw [Shell.sendPointerAt, hlistening, hl, if_neg Bool.false_ne_true, hsent]

theorem frame_endScrollGesture : Frame s s.endScrollGesture := by
  unfold Shell.endScrollGesture
  dsimp only
  split
  · exact frame_sendPointerAt rfl rfl
  · exact ⟨rfl, fun _ => rfl⟩

/-- The end of a scroll gesture, if one is active. -/
theorem endScrollGesture_spec (h : s.listening = true) (halt : Alternates s.sent) :
    s.endScrollGesture.listening = true ∧ s.endScrollGesture.buttonDown = s.buttonDown ∧
      s.endScrollGesture.scrollActive = false ∧
      (Alternates s.endScrollGesture.sent ↔
        (s.scrollActive = true → pointerDown s.sent = true)) ∧
      pointerDown s.endScrollGesture.sent = (pointerDown s.sent && !s.scrollActive) := by
  unfold Shell.endScrollGesture
  cases hactive : s.scrollActive with
  | true =>
    simp [alternates_sendPointerAt, pointerDown_sendPointerAt, h, halt]
  | false =>
    simp [h, halt]

end

/-! ## When a step keeps them so -/

section

variable {φ : Type} [CGFloat φ]
variable {s : Shell φ} {v : View φ} {p : Pair φ} {w : Wheel φ} {e : Event φ} {action : Action}

/-- The mouse is heard at a point of the view. -/
def View.hears (v : View φ) (p : Pair φ) : Bool :=
  !v.flat && !v.outside p

/-- What a scroll-wheel event comes to. -/
inductive Scroll
  | nothing
  | begins
  | moves
  | ends
  deriving DecidableEq

/-- By the phases of the event, in this state. -/
def Shell.scroll (s : Shell φ) (v : View φ) (w : Wheel φ) : Scroll :=
  if v.flat || v.outside w.location && !s.scrollActive then .nothing
  else if w.momentumPhase ≠ .none ∧ w.phase = .none then
    if s.scrollActive then .ends else .nothing
  else
    match w.phase with
    | .began => .begins
    | .changed => .moves
    | .ended | .cancelled => .ends
    | .none => if w.deltaX == 0 && w.deltaY == 0 then .nothing else .moves
    | .stationary | .mayBegin => .nothing

/-- **An event fits.** Whoever ends the scroll gesture finds its pointer
still down; the button goes down in the view where no pointer is down but
the gesture's, and is released in the view, or outside with the gesture
active; the mouse is dragged in the view with a pointer down; and a gesture
begins where no pointer is down, or moves where its own is. -/
def Shell.Fits (s : Shell φ) : Event φ → Prop
  | .mouseDown v p =>
    (s.scrollActive = true → pointerDown s.sent = true) ∧
      (v.hears p = true → pointerDown s.sent = true → s.scrollActive = true)
  | .mouseDragged v p => v.hears p = true → pointerDown s.sent = true
  | .mouseUp v p =>
    if v.hears p = true then pointerDown s.sent = true
    else pointerDown s.sent = true → s.scrollActive = true
  | .scrollWheel v w =>
    match s.scroll v w with
    | .nothing => True
    | .begins => pointerDown s.sent = false
    | .moves => pointerDown s.sent = s.scrollActive
    | .ends => s.scrollActive = true → pointerDown s.sent = true
  | .scrollEndTimer =>
    s.scrollEndTimer = true → s.scrollActive = true → pointerDown s.sent = true

theorem sendPointerEvent_eq :
    s.sendPointerEvent v p action =
      if v.hears p then s.sendPointerAt (v.toFrame p) action else s := by
  rw [Shell.sendPointerEvent, View.hears]
  cases v.flat <;> cases v.outside p <;> rfl

theorem beginScroll_spec (h : s.listening = true) (halt : Alternates s.sent) :
    (s.beginScroll v w).listening = true ∧ (s.beginScroll v w).buttonDown = s.buttonDown ∧
      (s.beginScroll v w).scrollActive = true ∧
      (Alternates (s.beginScroll v w).sent ↔ pointerDown s.sent = false) ∧
      pointerDown (s.beginScroll v w).sent = true := by
  unfold Shell.beginScroll
  simp [alternates_sendPointerAt, pointerDown_sendPointerAt, h, halt]

theorem moveScroll_spec (h : s.listening = true) (halt : Alternates s.sent) :
    (s.moveScroll v w).buttonDown = s.buttonDown ∧ (s.moveScroll v w).scrollActive = true ∧
      (Alternates (s.moveScroll v w).sent ↔ pointerDown s.sent = s.scrollActive) := by
  obtain ⟨hlistening, hbutton, hactive, halternates, hdown⟩ := beginScroll_spec (v := v) (w := w)
    h halt
  unfold Shell.moveScroll
  cases hscroll : s.scrollActive with
  | true =>
    simp [alternates_sendPointerAt, h, halt, hscroll]
  | false =>
    simp [alternates_sendPointerAt, hlistening, hbutton, hactive, halternates, hdown]

/-- **A scroll-wheel event does what it comes to.** -/
theorem handleScrollWheel_eq : s.handleScrollWheel v w =
    match s.scroll v w with
    | .nothing => s
    | .begins => Shell.beginScroll { s with scrollEndTimer := false } v w
    | .moves =>
      if w.phase = .changed then s.moveScroll v w
      else { s.moveScroll v w with scrollEndTimer := true }
    | .ends => s.endScrollGesture := by
  unfold Shell.handleScrollWheel Shell.scroll
  cases v.flat with
  | true => rfl
  | false =>
    cases v.outside w.location && !s.scrollActive with
    | true => rfl
    | false =>
      by_cases hmomentum : w.momentumPhase ≠ .none ∧ w.phase = .none
      · simp only [Bool.false_or, Bool.false_eq_true, if_false, if_pos hmomentum]
        cases s.scrollActive <;> rfl
      · simp only [Bool.false_or, Bool.false_eq_true, if_false, if_neg hmomentum]
        cases w.phase <;> try rfl
        cases w.deltaX == 0 && w.deltaY == 0 <;> rfl

/-- **One event.** The gestures stay well formed exactly where the event
fits. -/
theorem wellFormed_step (h : s.listening = true) (hwell : WellFormed s) :
    WellFormed (s.step e) ↔ s.Fits e := by
  obtain ⟨halt, hheld⟩ := wellFormed_iff.mp hwell
  obtain ⟨hlistening, hbutton, hactive, halternates, hdown⟩ := endScrollGesture_spec h halt
  have hended : WellFormed s.endScrollGesture ↔
      (s.scrollActive = true → pointerDown s.sent = true) := by
    rw [wellFormed_iff, halternates, hbutton, hactive, hdown]
    -- what is left down was not the gesture's, so the button holds it
    refine and_iff_left_of_imp fun _ hleft => ?_
    rw [Bool.and_eq_true, Bool.not_eq_true'] at hleft
    refine Or.inl ((hheld hleft.1).resolve_right ?_)
    rw [hleft.2]
    decide
  cases e with
  | mouseDown v p =>
    simp only [wellFormed_iff, Shell.step, Shell.Fits, sendPointerEvent_eq]
    cases v.hears p with
    | true =>
      simp [alternates_sendPointerAt hlistening, halternates, hdown]
      tauto
    | false => simp [halternates]
  | mouseDragged v p =>
    simp only [wellFormed_iff, Shell.step, Shell.Fits, sendPointerEvent_eq]
    cases v.hears p with
    | true =>
      simp [alternates_sendPointerAt h, pointerDown_sendPointerAt h, halt]
      exact hheld
    | false => simpa [halt] using hheld
  | mouseUp v p =>
    simp only [wellFormed_iff, Shell.step, Shell.Fits, sendPointerEvent_eq]
    cases v.hears p with
    | true => simp [alternates_sendPointerAt h, pointerDown_sendPointerAt h, halt]
    | false => simp [halt]
  | scrollWheel v w =>
    simp only [Shell.step, Shell.Fits, handleScrollWheel_eq]
    cases s.scroll v w with
    | nothing => exact ⟨fun _ => trivial, fun _ => hwell⟩
    | begins =>
      obtain ⟨-, -, hactive', halternates', -⟩ :=
        @beginScroll_spec _ _ { s with scrollEndTimer := false } v w h halt
      dsimp only
      rw [wellFormed_iff, hactive', halternates']
      simp
    | moves =>
      obtain ⟨-, hactive', halternates'⟩ := moveScroll_spec (v := v) (w := w) h halt
      dsimp only
      rw [← halternates', wellFormed_iff]
      split <;> simp [hactive']
    | ends => exact hended
  | scrollEndTimer =>
    simp only [Shell.step, Shell.Fits]
    cases s.scrollEndTimer with
    | true => simpa using hended
    | false => simpa using hwell

theorem frame_sendPointerEvent : Frame s (s.sendPointerEvent v p action) := by
  rw [sendPointerEvent_eq]
  split
  · exact frame_sendPointerAt rfl rfl
  · exact Frame.refl

theorem frame_beginScroll : Frame s (s.beginScroll v w) :=
  frame_sendPointerAt rfl rfl

theorem frame_moveScroll : Frame s (s.moveScroll v w) := by
  unfold Shell.moveScroll
  have hbegun : Frame s (if !s.scrollActive then s.beginScroll v w else s) := by
    split
    · exact frame_beginScroll
    · exact Frame.refl
  exact hbegun.trans (frame_sendPointerAt rfl rfl)

/-- **One event, for those who listen.** -/
theorem frame_step : Frame s (s.step e) := by
  cases e with
  | mouseDown v p =>
    have hsent := (@frame_endScrollGesture _ s).trans (@frame_sendPointerEvent _ _ _ v p .down)
    exact ⟨hsent.listening, hsent.sent⟩
  | mouseDragged v p => exact frame_sendPointerEvent
  | mouseUp v p =>
    have hsent := @frame_sendPointerEvent _ _ s v p .up
    exact ⟨hsent.listening, hsent.sent⟩
  | scrollWheel v w =>
    rw [Shell.step, handleScrollWheel_eq]
    cases s.scroll v w with
    | nothing => exact Frame.refl
    | begins => exact frame_sendPointerAt rfl rfl
    | moves =>
      have hsent := @frame_moveScroll _ _ s v w
      dsimp only
      split
      · exact hsent
      · exact ⟨hsent.listening, hsent.sent⟩
    | ends => exact frame_endScrollGesture
  | scrollEndTimer =>
    rw [Shell.step]
    split
    · exact frame_endScrollGesture
    · exact Frame.refl

/-! ## Whole runs -/

/-- **The gestures of a run are well formed** exactly where every event
fits, or where nobody listens. -/
theorem well_formed_iff (listening : Bool) (origin : Pair φ) (es : List (Event φ)) :
    Throughout Shell.step WellFormed (Shell.start listening origin) es ↔
      Meets Shell.step (fun s e => s.listening = false ∨ s.Fits e)
        (Shell.start listening origin) es := by
  have hstart : WellFormed (Shell.start listening origin) :=
    ⟨trivial, fun _ _ => rfl⟩
  have hall : Meets Shell.step (fun _ _ => True) (Shell.start listening origin) es :=
    meets_of_kept (K := fun _ => True) (fun _ _ _ => trivial) (fun _ _ _ => trivial) trivial es
  -- what a run keeps is only that nothing is sent to nobody
  refine throughout_iff_meets (K := fun s => s.listening = false → s.sent = []) ?_ ?_
    (fun _ => rfl) hstart hall
  · intro s e hquiet _ hl
    have hsame := @frame_step _ _ s e
    rw [hsame.listening] at hl
    rw [hsame.sent hl, hquiet hl]
  · intro s e hquiet hwell _
    cases hl : s.listening with
    | true =>
      rw [wellFormed_step hl hwell]
      simp
    | false =>
      have hempty : (s.step e).sent = [] := (frame_step.sent hl).trans (hquiet hl)
      refine iff_of_true ⟨?_, ?_⟩ (Or.inl rfl)
      · rw [hempty]
        trivial
      · intro _ _
        rw [hempty]
        rfl

/-- The button goes down in a view of 10 by 10 and is released beside
it. -/
def releasedOutside : List (Event ℤ) :=
  [.mouseDown ⟨⟨10, 10⟩, 10, 10⟩ ⟨5, 5⟩, .mouseUp ⟨⟨10, 10⟩, 10, 10⟩ ⟨15, 5⟩]

theorem released_outside_left_down :
    ¬Throughout Shell.step WellFormed (Shell.start true ⟨0, 0⟩) releasedOutside := by
  rintro ⟨-, -, hlast⟩
  exact absurd (hlast.lifted (by decide) (by decide)) (by decide)

end

end Pointer

end Frames

end Muplar
