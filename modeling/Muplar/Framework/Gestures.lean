import Muplar.Framework.Touches
/-!
# The framework — touches as gestures

An input is applied before one that waits where it is applied at once
while the other is pending; one that waits may be forgotten; and an
activity that received a DOWN need not receive its end, which goes to
whatever the input's tab stands for by then, is swallowed where it ends a
swipe on the launcher, or arrives twice where the activity ignores it.

Where no step does any of this, touches reach the activities complete and
in order (`touches_complete`).
-/

namespace Muplar

namespace Framework

namespace Touch

open Machine

variable {φ : Type} {P : Platform φ} {c : Controller φ} {i : DeviceInput φ} {t : Turn}

/-! ## Steps in order -/

/-- An event is delivered a second time. -/
def doubles (P : Platform φ) (t : Turn) : Bool :=
  t.reply = .ignored && P.forwards

/-- What the main thread has taken from the pending inputs. -/
def Main.taken : Main φ → List (DeviceInput φ)
  | .flushing rest => rest
  | _ => []

/-- What it is about to put there. -/
def Main.held : Main φ → List (DeviceInput φ)
  | .queueing i => [i]
  | _ => []

def Post.inputs : Post φ → List (DeviceInput φ)
  | .input i => [i]
  | _ => []

def Dispatch.input : Dispatch φ → DeviceInput φ
  | .start i => i
  | .queueing i => i

namespace Controller

/-- The activity that receives an input's touch event. -/
def receiver (P : Platform φ) (c : Controller φ) (i : DeviceInput φ) (t : Turn) : Option ℕ :=
  if i.type = 2 then
    (c.target i).filter fun r => !(((c.aim i).press t.now i).swipes P r i)
  else none

/-- **A touch is well aimed.** -/
structure Aimed (P : Platform φ) (c : Controller φ) (i : DeviceInput φ) (t : Turn) : Prop where
  /-- But for a MOVE, the event is delivered once. -/
  once : i.action ≠ actionMove → c.receiver P i t ≠ none → doubles P t = false
  /-- What follows a DOWN goes to the activity that received it. -/
  follows : i.action ≠ actionDown → ∀ r ∈ c.receiver P i t, c.Holds r
  /-- What ends the gesture is received, if the DOWN was. -/
  ended : ends i.action = true → c.receiver P i t = none → ∀ r, ¬c.Holds r

/-- A flush of the pending inputs will come. -/
def FlushDue (c : Controller φ) : Prop :=
  .flushInputs ∈ c.queue ∨ c.main = .applied ∨ (∃ rest, c.main = .applying rest) ∨
    c.pendingActions ≠ [] ∧ (.flushActions ∈ c.queue ∨ 0 < c.flushers)

/-- **A step in order.** The generation drops no part of a gesture that is
let through; inputs are left to wait only where a flush of them will come;
no input is applied at once while another is pending; and every touch is
well aimed. -/
def Orderly (P : Platform φ) (c : Controller φ) : Event φ → Prop
  | .input i => c.reader = none → i.type = 2 → i.action ≠ actionDown →
    (c.inputGeneration < i.generation → gesture (touches c.accepted) = some true) ∧
      (i.generation ≤ c.inputGeneration → ends i.action = true →
        gesture (touches c.accepted) ≠ some true)
  | .dispatch =>
    match c.reader with
    | some (.queueing _) => c.mainReady = true → c.FlushDue
    | _ => True
  | .moved e => c.registers (c.back.next P.toLowerCase e) = true → c.mainReady = false →
    c.pendingInputs ≠ [] ∨ c.main.held ≠ [] → c.pendingActions ≠ [] ∨ c.FlushDue
  | .flush => c.looper = true ∨ c.pendingInputs = [] ∨ c.flushers ≠ 1
  | .main t =>
    match c.main, c.queue with
    | .idle, .input i :: _ => c.mainReady = true → c.pendingInputs = [] ∧ c.Aimed P i t
    | .flushing (i :: _), _ => c.Aimed P i t
    | _, _ => True
  | _ => True

end Controller

/-! ## Gestures -/

variable {as bs : List Int32} {a : Int32}

@[simp] theorem touches_append (is more : List (DeviceInput φ)) :
    touches (is ++ more) = touches is ++ touches more :=
  List.filterMap_append

theorem touches_single (i : DeviceInput φ) :
    touches [i] = if i.type = 2 then [i.action] else [] := by
  rw [touches, List.filterMap_cons]
  split <;> simp_all

theorem gesture_append (as bs : List Int32) :
    gesture (as ++ bs) = (gesture as).bind fun isOpen => bs.foldlM gestureStep isOpen :=
  List.foldlM_append

theorem gesture_concat (as : List Int32) (a : Int32) :
    gesture (as ++ [a]) = (gesture as).bind fun isOpen => gestureStep isOpen a := by
  rw [gesture_append]
  congr 1
  funext isOpen
  rw [List.foldlM_cons]
  cases gestureStep isOpen a <;> rfl

/-- A beginning of gestures is gestures. -/
theorem isSome_gesture_of_begins (h : as <+: bs) (hbs : (gesture bs).isSome) :
    (gesture as).isSome := by
  obtain ⟨rest, rfl⟩ := h
  rw [gesture_append] at hbs
  exact Option.isSome_of_isSome_bind hbs

/-- What an action does to a gesture. -/
theorem gestureStep_cases {isOpen after : Bool} (h : gestureStep isOpen a = some after) :
    (a = actionDown ∧ isOpen = false ∧ after = true) ∨
      (a = actionMove ∧ isOpen = true ∧ after = true) ∨
        (ends a = true ∧ isOpen = true ∧ after = false) := by
  rw [gestureStep] at h
  split at h
  · next hdown => cases isOpen <;> simp_all
  · split at h
    · next hmove => cases isOpen <;> simp_all
    · split at h
      · next hends => cases isOpen <;> simp_all
      · cases h

theorem gestureStep_ends (h : ends a = true) (isOpen : Bool) :
    gestureStep isOpen a = if isOpen then some false else none := by
  have hcases : a = actionUp ∨ a = actionCancel := by
    simpa [ends] using h
  rcases hcases with rfl | rfl <;> rfl

theorem ne_of_ends (h : ends a = true) : a ≠ actionDown ∧ a ≠ actionMove := by
  constructor
  · rintro rfl
    cases h
  · rintro rfl
    cases h

/-! ## One input -/

namespace Controller

/-- The touch events that come of an input. -/
def receives (P : Platform φ) (c : Controller φ) (i : DeviceInput φ) (t : Turn) :
    List (ℕ × Int32) :=
  match c.receiver P i t with
  | none => []
  | some r => events P r i.action t.reply

theorem release_eq (c : Controller φ) (r : ℕ) (i : DeviceInput φ) (reached : Bool) :
    ∃ back time, c.release P r i reached = { c with back, pointerDownTime := time } := by
  rw [release]
  split
  · exact ⟨_, _, rfl⟩
  · exact ⟨c.back, c.pointerDownTime, rfl⟩

theorem press_eq (c : Controller φ) (now : Int64) (i : DeviceInput φ) :
    ∃ time x y, c.press now i =
      { c with pointerDownTime := time, pointerDownX := x, pointerDownY := y } := by
  rw [press]
  split
  · exact ⟨_, _, _, rfl⟩
  · exact ⟨c.pointerDownTime, c.pointerDownX, c.pointerDownY, rfl⟩

/-- A swipe is told from the activities and the pointer alone. -/
theorem swipes_press_congr {c c' : Controller φ} (hback : c'.back = c.back)
    (htime : c'.pointerDownTime = c.pointerDownTime) (hx : c'.pointerDownX = c.pointerDownX)
    (hy : c'.pointerDownY = c.pointerDownY) (now : Int64) (r : ℕ) (i : DeviceInput φ) :
    (c'.press now i).swipes P r i = (c.press now i).swipes P r i := by
  rw [press, press, htime]
  split <;> simp only [swipes, isVertical, hback, htime, hx, hy]

/-- And so is the receiver. -/
theorem receiver_congr {c c' : Controller φ} (hback : c'.back = c.back)
    (htime : c'.pointerDownTime = c.pointerDownTime) (hx : c'.pointerDownX = c.pointerDownX)
    (hy : c'.pointerDownY = c.pointerDownY) (i : DeviceInput φ) (t : Turn) :
    c'.receiver P i t = c.receiver P i t := by
  have haim : (c'.aim i).back = (c.aim i).back := by
    rw [aim, aim, hback]
  have hswipes : ∀ r, ((c'.aim i).press t.now i).swipes P r i =
      ((c.aim i).press t.now i).swipes P r i :=
    fun r => swipes_press_congr haim htime hx hy t.now r i
  simp only [receiver, target, hback, hswipes]

/-- What dispatching a motion does: beside the activities and the pointer,
there is the touch event, unless the motion swipes. -/
theorem dispatchMotionInput_eq (c : Controller φ) (r : ℕ) (i : DeviceInput φ) (t : Turn) :
    ∃ back time x y, c.dispatchMotionInput P r i t =
      { c with
        back, pointerDownTime := time, pointerDownX := x, pointerDownY := y
        received := c.received ++
          if (c.press t.now i).swipes P r i then [] else events P r i.action t.reply } := by
  obtain ⟨time, x, y, hpress⟩ := press_eq c t.now i
  rw [dispatchMotionInput]
  split
  · rw [hpress]
    exact ⟨_, _, _, _, by rw [List.append_nil]⟩
  · obtain ⟨back, time', hrelease⟩ := release_eq (P := P)
      { c.press t.now i with received := (c.press t.now i).received ++ events P r i.action t.reply }
      r i t.answers.reached
    rw [hrelease, hpress]
    exact ⟨_, _, _, _, rfl⟩

/-- **What applying an input does**: it is handed over, its touch events
are received, and beside the activities and the pointer nothing changes. -/
theorem applyInputOnMain_eq (c : Controller φ) (i : DeviceInput φ) (t : Turn) :
    ∃ back time x y, c.applyInputOnMain P i t =
      { c with
        back, pointerDownTime := time, pointerDownX := x, pointerDownY := y
        handed := c.handed ++ [i]
        received := c.received ++ c.receives P i t } := by
  have htarget : ({ c with handed := c.handed ++ [i] } : Controller φ).target i = c.target i := rfl
  rw [applyInputOnMain, htarget]
  rcases Option.eq_none_or_eq_some (c.target i) with hnone | ⟨r, hsome⟩
  · have hreceives : c.receives P i t = [] := by
      rw [receives, receiver, hnone, Option.filter_none, ite_self]
    rw [hnone, hreceives, List.append_nil]
    exact ⟨_, _, _, _, rfl⟩
  · rw [receives, receiver, hsome]
    dsimp only
    split
    · obtain ⟨back, time, x, y, hdispatch⟩ := dispatchMotionInput_eq (P := P)
        (({ c with handed := c.handed ++ [i] } : Controller φ).aim i) r i t
      have hswipes : ((({ c with handed := c.handed ++ [i] } : Controller φ).aim i).press
          t.now i).swipes P r i = ((c.aim i).press t.now i).swipes P r i := by
        apply swipes_press_congr <;> rfl
      rw [hdispatch, hswipes, Option.filter_some]
      refine ⟨back, time, x, y, ?_⟩
      cases ((c.aim i).press t.now i).swipes P r i <;> rfl
    · exact ⟨_, _, _, _, by rw [List.append_nil]; rfl⟩

/-! ## Orders that can be evaluated -/

/-- Only who received something holds it. -/
theorem mem_of_holds {r : ℕ} (h : c.Holds r) : r ∈ c.received.map Prod.fst := by
  by_contra hr
  have hnone : c.received.filter (·.1 = r) = [] := by
    refine List.filter_eq_nil_iff.mpr fun e he heq => hr ?_
    exact List.mem_map.mpr ⟨e, he, of_decide_eq_true heq⟩
  rw [Holds, receivedBy, hnone] at h
  cases h

instance decidableHolds (c : Controller φ) (r : ℕ) : Decidable (c.Holds r) :=
  inferInstanceAs (Decidable (_ = _))

instance decidableNobody (c : Controller φ) : Decidable (∀ r, ¬c.Holds r) :=
  decidable_of_iff (∀ r ∈ c.received.map Prod.fst, ¬c.Holds r)
    ⟨fun h r hr => h r (mem_of_holds hr) hr, fun h r _ => h r⟩

instance decidableAimed (c : Controller φ) (i : DeviceInput φ) (t : Turn) :
    Decidable (c.Aimed P i t) :=
  decidable_of_iff
    ((i.action ≠ actionMove → c.receiver P i t ≠ none → doubles P t = false) ∧
      (i.action ≠ actionDown → ∀ r ∈ c.receiver P i t, c.Holds r) ∧
        (ends i.action = true → c.receiver P i t = none → ∀ r, ¬c.Holds r))
    ⟨fun h => ⟨h.1, h.2.1, h.2.2⟩, fun h => ⟨h.once, h.follows, h.ended⟩⟩

instance decidableApplying : (main : Main φ) → Decidable (∃ rest, main = .applying rest)
  | .applying rest => isTrue ⟨rest, rfl⟩
  | .idle | .queueing _ | .applied | .flushing _ => isFalse fun ⟨_, h⟩ => nomatch h

instance decidableFlushDue [DecidableEq φ] (c : Controller φ) : Decidable c.FlushDue :=
  inferInstanceAs (Decidable (_ ∨ _ ∨ _ ∨ _))

instance decidableOrderly [DecidableEq φ] (c : Controller φ) :
    (e : Event φ) → Decidable (c.Orderly P e)
  | .input i => inferInstanceAs (Decidable (_ → _ → _ → _ ∧ _))
  | .dispatch =>
    match hreader : c.reader with
    | some (.queueing _) =>
      decidable_of_iff (c.mainReady = true → c.FlushDue) (by simp only [Orderly, hreader])
    | some (.start _) => isTrue (by simp only [Orderly, hreader])
    | none => isTrue (by simp only [Orderly, hreader])
  | .moved e => inferInstanceAs (Decidable (_ → _ → _ → _))
  | .flush => inferInstanceAs (Decidable (_ ∨ _ ∨ _))
  | .main t =>
    match hmain : c.main, hqueue : c.queue with
    | .idle, .input i :: _ =>
      decidable_of_iff (c.mainReady = true → c.pendingInputs = [] ∧ c.Aimed P i t)
        (by simp only [Orderly, hmain, hqueue])
    | .flushing (i :: _), _ => decidable_of_iff (c.Aimed P i t) (by simp only [Orderly, hmain])
    | .idle, [] => isTrue (by simp only [Orderly, hmain, hqueue])
    | .idle, .flushInputs :: _ => isTrue (by simp only [Orderly, hmain, hqueue])
    | .idle, .flushActions :: _ => isTrue (by simp only [Orderly, hmain, hqueue])
    | .queueing _, _ => isTrue (by simp only [Orderly, hmain])
    | .applied, _ => isTrue (by simp only [Orderly, hmain])
    | .flushing [], _ => isTrue (by simp only [Orderly, hmain])
    | .applying _, _ => isTrue (by simp only [Orderly, hmain])
  | .prepareLooper => isTrue trivial
  | .queueAction _ => isTrue trivial

/-! ## The gesture under way -/

/-- **One activity has the gesture**: of the events each received, at most
one activity's are open, and then what was handed over is. -/
structure Played (c : Controller φ) : Prop where
  /-- What was let through is gestures, and open only where what was offered
  is. -/
  filtered : ∃ isOpen, gesture (touches c.accepted) = some isOpen ∧
    (isOpen = true → gesture (touches c.offered) = some true)
  holder : ∃ holder : Option ℕ,
    (∀ r, gesture (c.receivedBy r) = some (decide (holder = some r))) ∧
      (holder ≠ none → gesture (touches c.handed) = some true)

/-- The input's touch is the one that comes next in what is handed over. -/
theorem handed_step {i : DeviceInput φ} (h : c.Played) (hmotion : i.type = 2)
    (hbegins : c.handed ++ [i] <+: c.accepted) :
    ∃ isOpen after, gesture (touches c.handed) = some isOpen ∧
      gestureStep isOpen i.action = some after ∧
        gesture (touches (c.handed ++ [i])) = some after := by
  obtain ⟨_, haccepted, -⟩ := h.filtered
  have hsome : (gesture (touches (c.handed ++ [i]))).isSome := by
    have htouches : touches (c.handed ++ [i]) <+: touches c.accepted := hbegins.filterMap _
    exact isSome_gesture_of_begins htouches (Option.isSome_of_eq_some haccepted)
  obtain ⟨after, hafter⟩ := Option.isSome_iff_exists.mp hsome
  have hstep := hafter
  rw [touches_append, touches_single, if_pos hmotion, gesture_concat] at hstep
  obtain ⟨isOpen, hisOpen, hstep⟩ := Option.bind_eq_some_iff.mp hstep
  exact ⟨isOpen, after, hisOpen, hstep, hafter⟩

/-- What the other activities received stays. -/
theorem receivedBy_other {received : List (ℕ × Int32)} {r s : ℕ} {a : Int32} {reply : Reply}
    (hne : r ≠ s) :
    (((received ++ events P r a reply).filter (·.1 = s)).map Prod.snd) =
      ((received.filter (·.1 = s)).map Prod.snd) := by
  have hempty : (events P r a reply).filter (·.1 = s) = [] := by
    refine List.filter_eq_nil_iff.mpr fun e he => ?_
    have hfst : e.1 = r := by
      rw [events, List.mem_cons] at he
      rcases he with rfl | he
      · rfl
      · split at he
        · rw [List.mem_singleton.mp he]
        · cases he
    simp [hfst, hne]
  rw [List.filter_append, hempty, List.append_nil]

/-- The one that is reached receives the action, once or twice. -/
theorem receivedBy_self {received : List (ℕ × Int32)} {r : ℕ} {a : Int32} {t : Turn} :
    (((received ++ events P r a t.reply).filter (·.1 = r)).map Prod.snd) =
      ((received.filter (·.1 = r)).map Prod.snd) ++ if doubles P t then [a, a] else [a] := by
  rw [List.filter_append, List.map_append, events, doubles]
  congr 1
  by_cases hdoubles : t.reply = .ignored ∧ P.forwards = true
  · simp [hdoubles]
  · have hfalse : (decide (t.reply = .ignored) && P.forwards) = false := by
      simpa using hdoubles
    rw [if_neg hdoubles, hfalse]
    simp

/-- Where the one that is reached changes hands, all do. -/
theorem received_step {received : List (ℕ × Int32)} {holder next : Option ℕ} {r : ℕ}
    (hreceived : ∀ s, gesture ((received.filter (·.1 = s)).map Prod.snd) =
      some (decide (holder = some s)))
    (hself : gesture ((received.filter (·.1 = r)).map Prod.snd ++
      if doubles P t then [a, a] else [a]) = some (decide (next = some r)))
    (hother : ∀ s ≠ r, holder = some s ↔ next = some s) (s : ℕ) :
    gesture (((received ++ events P r a t.reply).filter (·.1 = s)).map Prod.snd) =
      some (decide (next = some s)) := by
  by_cases hs : s = r
  · rw [hs, receivedBy_self]
    exact hself
  · rw [receivedBy_other (Ne.symm hs), hreceived s]
    exact congrArg some (decide_eq_decide.mpr (hother s hs))

/-- An input that is received is a motion. -/
theorem motion_of_receiver {r : ℕ} (h : c.receiver P i t = some r) : i.type = 2 := by
  rw [receiver] at h
  by_contra hmotion
  rw [if_neg hmotion] at h
  cases h

/-- **A well-aimed touch keeps the gesture in one hand.** -/
theorem played_apply (h : c.Played) (haim : c.Aimed P i t)
    (hbegins : c.handed ++ [i] <+: c.accepted) : (c.applyInputOnMain P i t).Played := by
  obtain ⟨back, time, x, y, happly⟩ := applyInputOnMain_eq (P := P) c i t
  rw [happly]
  refine { filtered := h.filtered, holder := ?_ }
  obtain ⟨holder, hreceived, hopen⟩ := h.holder
  rw [receives]
  rcases Option.eq_none_or_eq_some (c.receiver P i t) with hnone | ⟨r, hsome⟩
  · -- Nobody is reached: this is no end of what somebody holds.
    rw [hnone]
    simp only [List.append_nil]
    refine ⟨holder, hreceived, fun hholder => ?_⟩
    have htrue := hopen hholder
    by_cases hmotion : i.type = 2
    · obtain ⟨isOpen, after, hisOpen, hstep, hafter⟩ := handed_step h hmotion hbegins
      rcases gestureStep_cases hstep with ⟨-, hclosed, -⟩ | ⟨-, -, rfl⟩ | ⟨hends, -, -⟩
      · rw [htrue, hclosed] at hisOpen
        cases hisOpen
      · exact hafter
      · obtain ⟨r, rfl⟩ := Option.ne_none_iff_exists'.mp hholder
        refine absurd ?_ (haim.ended hends hnone r)
        rw [Holds, hreceived r, decide_eq_true rfl]
    · rw [touches_append, touches_single, if_neg hmotion, List.append_nil]
      exact htrue
  · -- The activity that is reached has the gesture, or begins it.
    obtain ⟨isOpen, after, hisOpen, hstep, hafter⟩ :=
      handed_step h (motion_of_receiver hsome) hbegins
    have hholds : i.action ≠ actionDown → holder = some r := by
      intro hdown
      have hr := haim.follows hdown r hsome
      rw [Holds, hreceived r] at hr
      exact of_decide_eq_true (Option.some.inj hr)
    have hone : i.action ≠ actionMove → doubles P t = false := by
      intro hmove
      exact haim.once hmove (by rw [hsome]; exact Option.some_ne_none r)
    have hown : ∀ held : Option ℕ, holder = held →
        gesture ((c.received.filter (·.1 = r)).map Prod.snd) = some (decide (held = some r)) :=
      fun held heq => heq ▸ hreceived r
    rw [hsome]
    rcases gestureStep_cases hstep with ⟨hdown, rfl, rfl⟩ | ⟨hmove, rfl, rfl⟩ | ⟨hends, rfl, rfl⟩
    · have hnone : holder = none := by
        by_contra hholder
        rw [hopen hholder] at hisOpen
        cases hisOpen
      refine ⟨some r, received_step hreceived ?_ ?_, fun _ => hafter⟩
      · rw [hone (by rw [hdown]; decide), if_neg Bool.false_ne_true, gesture_concat,
          hown none hnone, hdown, decide_eq_true rfl]
        rfl
      · intro s hs
        rw [hnone]
        exact iff_of_false (by simp) fun heq => hs (Option.some.inj heq).symm
    · have hheld := hholds (by rw [hmove]; decide)
      refine ⟨some r, received_step hreceived ?_ fun s _ => by rw [hheld], fun _ => hafter⟩
      -- A MOVE may arrive twice.
      rw [gesture_append, hown (some r) hheld, hmove, decide_eq_true rfl]
      cases doubles P t <;> rfl
    · obtain ⟨hnotDown, hnotMove⟩ := ne_of_ends hends
      have hheld := hholds hnotDown
      refine ⟨none, received_step hreceived ?_ ?_, fun hne => absurd rfl hne⟩
      · rw [hone hnotMove, if_neg Bool.false_ne_true, gesture_concat, hown (some r) hheld,
          decide_eq_true rfl]
        exact gestureStep_ends hends true
      · intro s hs
        rw [hheld]
        exact iff_of_false (fun heq => hs (Option.some.inj heq).symm) (by simp)

/-- **What is let through is gestures**, where the generation drops no part
of one. -/
theorem played_offer (h : c.Played) (hok : c.Orderly P (.input i))
    (hoffered : (gesture (touches (c.applyInput i).offered)).isSome) :
    (c.applyInput i).Played := by
  obtain ⟨isOpen, haccepted, hopen⟩ := h.filtered
  rw [applyInput] at hoffered ⊢
  split at hoffered
  · next hreader =>
    rw [if_pos hreader]
    exact h
  next hreader =>
  have hfree : c.reader = none := Option.not_isSome_iff_eq_none.mp hreader
  rw [if_neg hreader]
  -- What is offered is another part of a gesture.
  have hnext : (gesture (touches (c.offered ++ [i]))).isSome := by
    split at hoffered <;> exact hoffered
  by_cases hmotion : i.type = 2
  · obtain ⟨after, hafter⟩ := Option.isSome_iff_exists.mp hnext
    have htouches : ∀ is : List (DeviceInput φ), gesture (touches (is ++ [i])) =
        (gesture (touches is)).bind fun isOpen => gestureStep isOpen i.action := by
      intro is
      rw [touches_append, touches_single, if_pos hmotion, gesture_concat]
    have hstep := hafter
    rw [htouches] at hstep
    obtain ⟨before, hbefore, hstep⟩ := Option.bind_eq_some_iff.mp hstep
    have hdropped : i.action ≠ actionDown → _ := hok hfree hmotion
    split
    · next hle =>
      refine { h with filtered := ⟨isOpen, haccepted, fun hisOpen => ?_⟩ }
      rw [hopen hisOpen] at hbefore
      rcases gestureStep_cases hstep with ⟨-, rfl, -⟩ | ⟨-, -, rfl⟩ | ⟨hends, -, -⟩
      · cases hbefore
      · exact hafter
      · rw [hisOpen] at haccepted
        exact absurd haccepted ((hdropped (ne_of_ends hends).1).2 hle hends)
    · next hle =>
      have hsame : isOpen = before := by
        cases isOpen with
        | true => exact Option.some.inj ((hopen rfl).symm.trans hbefore)
        | false =>
          by_cases hdown : i.action = actionDown
          · rcases gestureStep_cases hstep with ⟨-, rfl, -⟩ | ⟨hmove, -, -⟩ | ⟨hends, -, -⟩
            · rfl
            · rw [hdown] at hmove
              cases hmove
            · exact absurd hdown (ne_of_ends hends).1
          · have htrue := (hdropped hdown).1 (Int64.not_le.mp hle)
            rw [haccepted] at htrue
            cases htrue
      refine { h with filtered := ⟨after, ?_, fun htrue => ?_⟩ }
      · refine (htouches c.accepted).trans ?_
        rw [haccepted, hsame]
        exact hstep
      · rw [← htrue]
        exact hafter
  · have htouches : ∀ is : List (DeviceInput φ), touches (is ++ [i]) = touches is := by
      intro is
      rw [touches_append, touches_single, if_neg hmotion, List.append_nil]
    split
    · refine { h with filtered := ⟨isOpen, haccepted, fun hisOpen => ?_⟩ }
      exact (congrArg gesture (htouches c.offered)).trans (hopen hisOpen)
    · refine { h with filtered := ⟨isOpen, ?_, fun hisOpen => ?_⟩ }
      · exact (congrArg gesture (htouches c.accepted)).trans haccepted
      · exact (congrArg gesture (htouches c.offered)).trans (hopen hisOpen)

/-! ## What is on its way -/

/-- The inputs in the messages of the main looper. -/
def posted (c : Controller φ) : List (DeviceInput φ) :=
  c.queue.flatMap Post.inputs

/-- The input the reader has in hand. -/
def reading (c : Controller φ) : List (DeviceInput φ) :=
  (c.reader.map Dispatch.input).toList

/-- **All inputs let through**, the oldest first. -/
def line (c : Controller φ) : List (DeviceInput φ) :=
  c.handed ++ c.main.taken ++ c.pendingInputs ++ c.main.held ++ c.posted ++ c.reading

/-- **The line is kept.** -/
structure Kept (c : Controller φ) : Prop where
  order : c.line = c.accepted
  increasing : (c.accepted.map DeviceInput.generation).Pairwise (· < ·)
  below : ∀ i ∈ c.accepted, i.generation ≤ c.inputGeneration
  /-- Nothing is posted without a looper. -/
  posts : c.looper = false → c.queue = [] ∧ c.main = .idle
  /-- Behind an input that found no looper, none was posted. -/
  alone : ∀ i, c.reader = some (.queueing i) → c.main.held = [] ∧ c.posted = []
  /-- What is pending will be flushed. -/
  due : c.pendingInputs ≠ [] ∨ c.main.held ≠ [] → c.mainReady = true → c.FlushDue

/-- A flush that is due stays due while messages and flushers only come. -/
theorem FlushDue.mono {c c' : Controller φ} (h : c.FlushDue)
    (hqueue : ∀ p ∈ c.queue, p ∈ c'.queue) (hflushers : c.flushers ≤ c'.flushers)
    (hmain : c'.main = c.main) (hpending : c.pendingActions ≠ [] → c'.pendingActions ≠ []) :
    c'.FlushDue := by
  rcases h with h | h | ⟨rest, h⟩ | ⟨hactions, h | h⟩
  · exact .inl (hqueue _ h)
  · exact .inr (.inl (hmain.trans h))
  · exact .inr (.inr (.inl ⟨rest, hmain.trans h⟩))
  · exact .inr (.inr (.inr ⟨hpending hactions, .inl (hqueue _ h)⟩))
  · exact .inr (.inr (.inr ⟨hpending hactions, .inr (Nat.lt_of_lt_of_le h hflushers)⟩))

/-! ## One step -/

/-- What is let through has the greatest generation. -/
theorem kept_input (h : c.Kept) (i : DeviceInput φ) : (c.applyInput i).Kept := by
  have horder := h.order
  rw [applyInput]
  split
  · exact h
  next hreader =>
  have hfree : c.reader = none := Option.not_isSome_iff_eq_none.mp hreader
  split
  · exact { h with }
  · next hle =>
    have hlt : c.inputGeneration < i.generation := Int64.not_le.mp hle
    refine { h with order := ?_, increasing := ?_, below := ?_, alone := ?_ }
    · rw [line, reading, hfree] at horder
      rw [line, reading, ← horder]
      simp [Dispatch.input, posted]
    · refine (List.map_append ▸ List.pairwise_append.mpr ⟨h.increasing, ?_, ?_⟩)
      · exact List.pairwise_singleton _ _
      · intro g hg g' hg'
        obtain ⟨j, hj, rfl⟩ := List.mem_map.mp hg
        rw [List.mem_singleton.mp hg']
        exact Int64.lt_of_le_of_lt (h.below j hj) hlt
    · intro j hj
      rcases List.mem_append.mp hj with hj | hj
      · exact Int64.le_of_lt (Int64.lt_of_le_of_lt (h.below j hj) hlt)
      · rw [List.mem_singleton.mp hj]
        exact Int64.le_refl _
    · intro j hj
      cases hj

/-- The reader posts its input, or queues it. -/
theorem kept_dispatch (h : c.Kept) (hok : c.Orderly P .dispatch) : c.dispatchInput.Kept := by
  have horder := h.order
  rw [dispatchInput]
  split
  · exact h
  · next j hreader =>
    rw [line, reading, hreader] at horder
    split
    · next hlooper =>
      refine { h with order := ?_, posts := ?_, alone := ?_, due := ?_ }
      · rw [← horder]
        simp [line, posted, reading, Post.inputs, Dispatch.input]
      · intro hnone
        rw [hlooper] at hnone
        cases hnone
      · rintro j' ⟨⟩
      · intro hpending hready
        exact (h.due hpending hready).mono (fun p hp => List.mem_append_left _ hp)
          (Nat.le_refl _) rfl id
    · next hlooper =>
      obtain ⟨hqueue, hmain⟩ := h.posts (Bool.eq_false_iff.mpr hlooper)
      refine { h with order := horder, alone := ?_ }
      intro j' _
      simp [posted, hqueue, hmain, Main.held]
  · next j hreader =>
    -- It goes to the end of what is pending, past what is posted: nothing is there.
    obtain ⟨hheld, hposted⟩ := h.alone j hreader
    rw [line, reading, hreader, hheld, hposted] at horder
    refine { h with order := ?_, alone := ?_, due := ?_ }
    · rw [← horder]
      rw [posted] at hposted
      simp [line, posted, reading, hheld, hposted, Dispatch.input]
    · rintro j' ⟨⟩
    · intro _ hready
      simp only [Orderly, hreader] at hok
      exact (hok hready).mono (fun _ => id) (Nat.le_refl _) rfl id

theorem kept_prepareLooper (h : c.Kept) : ({ c with looper := true } : Controller φ).Kept := by
  refine { h with posts := ?_ }
  rintro ⟨⟩

theorem kept_queueAction (h : c.Kept) (action : DeviceAction) :
    ({ c with pendingActions := c.pendingActions ++ [action] } : Controller φ).Kept :=
  { h with
    due := fun hpending hready =>
      (h.due hpending hready).mono (fun _ => id) (Nat.le_refl _) rfl fun _ =>
        List.append_ne_nil_of_right_ne_nil _ (List.cons_ne_nil _ _) }

/-- One flush more does no harm. -/
theorem kept_flushers (h : c.Kept) :
    ({ c with flushers := c.flushers + 1 } : Controller φ).Kept :=
  { h with
    due := fun hpending hready =>
      (h.due hpending hready).mono (fun _ => id) (Nat.le_succ _) rfl id }

/-- The activities move; where that makes the main thread ready, what waits
has a flush. -/
theorem kept_moveTo (h : c.Kept) {back : Backstack}
    (hok : c.registers back = true → c.mainReady = false →
      c.pendingInputs ≠ [] ∨ c.main.held ≠ [] → c.pendingActions ≠ [] ∨ c.FlushDue) :
    (c.moveTo back).Kept := by
  refine { h with due := fun hpending hready => ?_ }
  have hflushers : c.flushers ≤ (c.moveTo back).flushers := Nat.le_add_right _ _
  by_cases hwas : c.mainReady = true
  · exact (h.due hpending hwas).mono (fun _ => id) hflushers rfl id
  · have hregisters : c.registers back = true := by
      rcases Bool.or_eq_true_iff.mp hready with hready | hregisters
      · exact absurd hready hwas
      · exact hregisters
    rcases hok hregisters (Bool.eq_false_iff.mpr hwas) hpending with hactions | hdue
    · refine .inr (.inr (.inr ⟨hactions, .inr ?_⟩))
      rw [moveTo, hregisters]
      exact Nat.succ_pos _
    · exact hdue.mono (fun _ => id) hflushers rfl id

theorem kept_moved (h : c.Kept) (e : Backstack.Event) (hok : c.Orderly P (.moved e)) :
    (c.move P e).Kept := by
  have hmoved := kept_moveTo h hok
  cases e with
  | input => exact h
  | action => exact kept_flushers hmoved
  | register => exact hmoved
  | start => exact hmoved
  | finish => exact hmoved
  | finishActive => exact hmoved
  | focused => exact hmoved

/-- A flush is posted, where there is a looper. -/
theorem kept_flush (h : c.Kept) (hok : c.Orderly P .flush) : (c.next P .flush).Kept := by
  have horder := h.order
  simp only [next, flushPendingActions]
  split
  · exact h
  next hsome =>
  split
  · next hlooper =>
    refine { h with order := ?_, posts := ?_, alone := ?_, due := ?_ }
    · rw [← horder]
      simp [line, posted, reading, Post.inputs]
    · intro hnone
      rw [hlooper] at hnone
      cases hnone
    · intro j hreader
      have halone := h.alone j hreader
      simpa [posted, Post.inputs] using halone
    · intro hpending hready
      rcases h.due hpending hready with hd | hd | hd | ⟨hactions, -⟩
      · exact .inl (List.mem_append_left _ hd)
      · exact .inr (.inl hd)
      · exact .inr (.inr (.inl hd))
      · have hposted : .flushActions ∈ c.queue ++ [.flushActions] :=
          List.mem_append_right _ (List.mem_singleton_self _)
        exact .inr (.inr (.inr ⟨hactions, .inl hposted⟩))
  · next hlooper =>
    -- Nobody is woken: nothing may be pending, or another flush must come.
    obtain ⟨hqueue, hmain⟩ := h.posts (Bool.eq_false_iff.mpr hlooper)
    refine { h with due := ?_ }
    intro hpending hready
    rcases hok with hl | hnil | hflushers
    · exact absurd hl hlooper
    · rw [hmain] at hpending
      rcases hpending with hp | hp
      · exact absurd hnil hp
      · exact absurd rfl hp
    · rcases h.due hpending hready with hd | hd | hd | ⟨hactions, hd⟩
      · exact .inl hd
      · exact .inr (.inl hd)
      · exact .inr (.inr (.inl hd))
      · refine .inr (.inr (.inr ⟨hactions, hd.imp_right fun _ => ?_⟩))
        change 0 < c.flushers - 1
        omega

/-- What is applied is the first of those behind what was handed over. -/
theorem kept_apply (h : c.Kept) {main : Main φ} {queue : List (Post φ)}
    (horder : c.handed ++ [i] ++ main.taken ++ c.pendingInputs ++ main.held ++
      queue.flatMap Post.inputs ++ c.reading = c.accepted)
    (hlooper : c.looper ≠ false)
    (halone : ∀ j, c.reader = some (.queueing j) →
      main.held = [] ∧ queue.flatMap Post.inputs = [])
    (hdue : c.pendingInputs ≠ [] ∨ main.held ≠ [] → c.mainReady = true →
      ({ c with main, queue } : Controller φ).FlushDue) :
    (({ c with queue, main } : Controller φ).applyInputOnMain P i t).Kept := by
  obtain ⟨back, time, x, y, happly⟩ :=
    applyInputOnMain_eq (P := P) ({ c with queue, main } : Controller φ) i t
  rw [happly]
  exact { h with
    order := horder
    posts := fun hnone => absurd hnone hlooper
    alone := halone
    due := hdue }

/-- A flush takes what is pending, or nothing. -/
theorem kept_taken (h : c.Kept) {p : Post φ} {queue : List (Post φ)} {main : Main φ}
    {pendingInputs : List (DeviceInput φ)} {pendingActions : List DeviceAction}
    (hmain : c.main = .idle) (hqueue : c.queue = p :: queue) (hinputs : p.inputs = [])
    (htaken : main.taken ++ pendingInputs = c.pendingInputs) (hheld : main.held = [])
    (hdue : pendingInputs ≠ [] → c.mainReady = true →
      ({ c with queue, main, pendingInputs, pendingActions } : Controller φ).FlushDue) :
    ({ c with queue, main, pendingInputs, pendingActions } : Controller φ).Kept := by
  have horder := h.order
  have halone := h.alone
  have hlooper : c.looper ≠ false := by
    intro hnone
    have hempty := (h.posts hnone).1
    rw [hqueue] at hempty
    cases hempty
  simp only [line, posted, hmain, hqueue, List.flatMap_cons, hinputs, List.nil_append,
    Main.taken, Main.held] at horder halone
  refine { h with order := ?_, posts := ?_, alone := ?_, due := ?_ }
  · rw [← horder, ← htaken]
    simp [line, posted, reading, hheld]
  · exact fun hno => absurd hno hlooper
  · exact fun j hreader => ⟨hheld, (halone j hreader).2⟩
  · rintro (hpending | hno)
    · exact hdue hpending
    · exact absurd hheld hno

/-- The main thread takes its next message. -/
theorem kept_message (h : c.Kept) (hok : c.Orderly P (.main t)) (hmain : c.main = .idle) :
    (c.turn P t).Kept := by
  have horder := h.order
  have halone := h.alone
  have hlooper : c.queue ≠ [] → c.looper ≠ false := fun hne hnone => hne (h.posts hnone).1
  simp only [turn, hmain]
  split
  · exact h
  · next j queue hqueue =>
    simp only [line, posted, hmain, hqueue] at horder halone
    rw [hqueue] at hlooper
    have hlooper' := hlooper (List.cons_ne_nil _ _)
    have hnone : ∀ j', c.reader ≠ some (.queueing j') := fun j' hreader =>
      absurd (halone j' hreader).2 (by simp [Post.inputs])
    split
    · next hready =>
      simp only [Orderly, hmain, hqueue] at hok
      have hpending := (hok hready).1
      refine kept_apply h ?_ hlooper' (fun j' hreader => absurd hreader (hnone j')) ?_
      · rw [← horder, hpending]
        simp [Post.inputs, Main.taken, Main.held]
      · exact fun _ _ => .inr (.inl rfl)
    · next hready =>
      refine { h with order := ?_, posts := ?_, alone := ?_, due := ?_ }
      · rw [← horder]
        simp [line, posted, reading, Post.inputs, Main.taken, Main.held]
      · exact fun hno => absurd hno hlooper'
      · exact fun j' hreader => absurd hreader (hnone j')
      · exact fun _ hmainReady => absurd hmainReady hready
  · next queue hqueue =>
    split
    · next hnothing =>
      rw [← hmain]
      refine kept_taken h hmain hqueue rfl ?_ ?_ ?_
      · rw [hmain]
        rfl
      · rw [hmain]
        rfl
      · intro hpending hready
        rcases hnothing with hno | hnil
        · rw [hready] at hno
          cases hno
        · exact absurd hnil hpending
    · refine kept_taken h hmain hqueue rfl ?_ rfl ?_
      · exact List.append_nil _
      · exact fun hpending => absurd rfl hpending
  · next queue hqueue =>
    split
    · next hnothing =>
      rw [← hmain]
      refine kept_taken h hmain hqueue rfl ?_ ?_ ?_
      · rw [hmain]
        rfl
      · rw [hmain]
        rfl
      · -- A flush of the inputs is posted already: this one comes of no action.
        intro hpending hready
        rcases h.due (.inl hpending) hready with hd | hd | ⟨rest, hd⟩ | ⟨hactions, -⟩
        · rw [hqueue, List.mem_cons] at hd
          exact .inl (hd.resolve_left (by simp))
        · rw [hmain] at hd
          cases hd
        · rw [hmain] at hd
          cases hd
        · rcases hnothing with hno | hnil
          · rw [hready] at hno
            cases hno
          · exact absurd hnil hactions
    · refine kept_taken h hmain hqueue rfl ?_ rfl ?_
      · rfl
      · exact fun _ _ => .inr (.inr (.inl ⟨_, rfl⟩))

/-- The main thread is done, and posts a flush of the inputs. -/
theorem kept_flushPendingInputs (h : c.Kept) (hmain : c.main ≠ .idle) (htaken : c.main.taken = [])
    (hheld : c.main.held = []) :
    ({ c.flushPendingInputs with main := .idle } : Controller φ).Kept := by
  have horder := h.order
  have hlooper : c.looper = true :=
    Bool.ne_false_iff.mp fun hnone => hmain (h.posts hnone).2
  rw [line, htaken, hheld] at horder
  rw [flushPendingInputs, if_pos hlooper]
  refine { h with order := ?_, posts := ?_, alone := ?_, due := ?_ }
  · rw [← horder]
    simp [line, posted, reading, Post.inputs, Main.taken, Main.held]
  · exact fun hnone => absurd hnone (by rw [hlooper]; decide)
  · intro j hreader
    have hposted := (h.alone j hreader).2
    rw [posted] at hposted
    refine ⟨rfl, ?_⟩
    simp [posted, hposted, Post.inputs]
  · exact fun _ _ => .inl (List.mem_append_right _ (List.mem_singleton_self _))

/-- The main thread goes on. -/
theorem kept_turn (h : c.Kept) (hok : c.Orderly P (.main t)) : (c.turn P t).Kept := by
  have horder := h.order
  have hlooper : c.main ≠ .idle → c.looper ≠ false := fun hne hnone => hne (h.posts hnone).2
  cases hmain : c.main with
  | idle => exact kept_message h hok hmain
  | queueing j =>
    rw [line, hmain] at horder
    simp only [turn, hmain]
    refine { h with order := ?_, posts := ?_, alone := ?_, due := ?_ }
    · rw [← horder]
      simp [line, posted, reading, Main.taken, Main.held]
    · exact fun hnone => absurd hnone (hlooper (by simp [hmain]))
    · exact fun j' hreader => ⟨rfl, (h.alone j' hreader).2⟩
    · intro _ hready
      have hheld : c.main.held ≠ [] := by
        rw [hmain]
        exact List.cons_ne_nil _ _
      rcases h.due (.inr hheld) hready with hd | hd | ⟨rest, hd⟩ | hd
      · exact .inl hd
      · rw [hmain] at hd
        cases hd
      · rw [hmain] at hd
        cases hd
      · exact .inr (.inr (.inr hd))
  | applied =>
    simp only [turn, hmain]
    refine kept_flushPendingInputs h ?_ ?_ ?_ <;> rw [hmain]
    · rintro ⟨⟩
    · rfl
    · rfl
  | flushing rest =>
    rw [line, hmain] at horder
    have hlooper' := hlooper (by simp [hmain])
    -- What is flushed has no flush behind it that was due to the main thread.
    have hdue : ∀ main : Main φ, main.held = [] → c.pendingInputs ≠ [] ∨ main.held ≠ [] →
        c.mainReady = true → ({ c with main } : Controller φ).FlushDue := by
      intro main hheld hpending hready
      rcases h.due (.inl (hpending.resolve_right fun hne => hne hheld)) hready with
        hd | hd | ⟨rest', hd⟩ | hd
      · exact .inl hd
      · rw [hmain] at hd
        cases hd
      · rw [hmain] at hd
        cases hd
      · exact .inr (.inr (.inr hd))
    cases rest with
    | nil =>
      simp only [turn, hmain]
      exact { h with
        order := horder
        posts := fun hnone => absurd hnone hlooper'
        alone := fun j hreader => ⟨rfl, (h.alone j hreader).2⟩
        due := hdue .idle rfl }
    | cons j rest =>
      simp only [turn, hmain]
      refine kept_apply h ?_ hlooper' ?_ (hdue (.flushing rest) rfl)
      · rw [← horder]
        simp [Main.taken, Main.held, posted]
      · exact fun j' hreader => ⟨rfl, (h.alone j' hreader).2⟩
  | applying rest =>
    rw [line, hmain] at horder
    cases rest with
    | nil =>
      simp only [turn, hmain]
      refine kept_flushPendingInputs h ?_ ?_ ?_ <;> rw [hmain]
      · rintro ⟨⟩
      · rfl
      · rfl
    | cons action rest =>
      simp only [turn, hmain]
      have happlying : ({ c with main := .applying rest } : Controller φ).Kept :=
        { h with
          order := horder
          posts := fun hnone => absurd hnone (hlooper (by simp [hmain]))
          alone := fun j hreader => ⟨rfl, (h.alone j hreader).2⟩
          due := fun _ _ => .inr (.inr (.inl ⟨rest, rfl⟩)) }
      exact kept_moveTo happlying fun _ _ _ => .inr (.inr (.inr (.inl ⟨rest, rfl⟩)))

/-- **Every step in order keeps the line.** -/
theorem kept_next (h : c.Kept) (e : Event φ) (hok : c.Orderly P e) : (c.next P e).Kept := by
  cases e with
  | input i => exact kept_input h i
  | dispatch => exact kept_dispatch h hok
  | prepareLooper => exact kept_prepareLooper h
  | moved e => exact kept_moved h e hok
  | queueAction action => exact kept_queueAction h action
  | flush => exact kept_flush h hok
  | main t => exact kept_turn h hok

theorem Kept.handed_begins (h : c.Kept) : c.handed <+: c.accepted := by
  rw [← h.order]
  simp only [line, List.append_assoc]
  exact List.prefix_append _ _

/-- Where the main thread and its messages are left out, the aim stays. -/
theorem Aimed.frame (h : c.Aimed P i t) (queue : List (Post φ)) (main : Main φ) :
    ({ c with queue, main } : Controller φ).Aimed P i t := by
  have hreceiver : ({ c with queue, main } : Controller φ).receiver P i t = c.receiver P i t := by
    apply receiver_congr <;> rfl
  refine ⟨?_, ?_, ?_⟩
  · rw [hreceiver]
    exact h.once
  · rw [hreceiver]
    exact h.follows
  · rw [hreceiver]
    exact h.ended

/-- **The gesture stays in one hand** while the main thread goes on. -/
theorem played_turn (h : c.Played) (hok : c.Orderly P (.main t)) (hkept : (c.turn P t).Kept) :
    (c.turn P t).Played := by
  -- What is handed over now is what comes next in the line.
  have happlied : ∀ (i : DeviceInput φ) (queue : List (Post φ)) (main : Main φ),
      c.Aimed P i t →
        (({ c with queue, main } : Controller φ).applyInputOnMain P i t).Kept →
          (({ c with queue, main } : Controller φ).applyInputOnMain P i t).Played := by
    intro i queue main haim hk
    refine played_apply { h with } (haim.frame queue main) ?_
    obtain ⟨back, time, x, y, happly⟩ :=
      applyInputOnMain_eq (P := P) ({ c with queue, main } : Controller φ) i t
    rw [happly] at hk
    exact hk.handed_begins
  cases hmain : c.main with
  | idle =>
    simp only [turn, hmain] at hkept ⊢
    split at hkept
    · exact h
    · next i queue hqueue =>
      by_cases hready : c.mainReady = true
      · rw [if_pos hready] at hkept ⊢
        simp only [Orderly, hmain, hqueue] at hok
        exact happlied i queue .applied (hok hready).2 hkept
      · rw [if_neg hready]
        exact { h with }
    · split <;> exact { h with }
    · split <;> exact { h with }
  | queueing i =>
    simp only [turn, hmain]
    exact { h with }
  | applied =>
    simp only [turn, hmain, flushPendingInputs]
    split <;> exact { h with }
  | flushing rest =>
    cases rest with
    | nil =>
      simp only [turn, hmain]
      exact { h with }
    | cons i rest =>
      simp only [turn, hmain] at hkept ⊢
      simp only [Orderly, hmain] at hok
      exact happlied i c.queue (.flushing rest) hok hkept
  | applying rest =>
    cases rest with
    | nil =>
      simp only [turn, hmain, flushPendingInputs]
      split <;> exact { h with }
    | cons action rest =>
      simp only [turn, hmain]
      exact { h with }


theorem offered_applyInputOnMain (c : Controller φ) (i : DeviceInput φ) (t : Turn) :
    (c.applyInputOnMain P i t).offered = c.offered := by
  obtain ⟨back, time, x, y, happly⟩ := applyInputOnMain_eq (P := P) c i t
  rw [happly]

/-- The main thread is offered nothing by the stream. -/
theorem offered_turn (c : Controller φ) (t : Turn) : (c.turn P t).offered = c.offered := by
  rw [turn]
  split
  · split
    · rfl
    · split
      · exact offered_applyInputOnMain _ _ t
      · rfl
    · split <;> rfl
    · split <;> rfl
  · rfl
  · rw [flushPendingInputs]
    split <;> rfl
  · rfl
  · exact offered_applyInputOnMain _ _ t
  · rw [flushPendingInputs]
    split <;> rfl
  · rfl

/-- What was offered stays at the beginning of what is. -/
theorem offered_next (c : Controller φ) (e : Event φ) : c.offered <+: (c.next P e).offered := by
  cases e with
  | input i =>
    change c.offered <+: (c.applyInput i).offered
    rw [applyInput]
    split
    · exact List.prefix_rfl
    · split <;> exact List.prefix_append _ _
  | dispatch =>
    change c.offered <+: c.dispatchInput.offered
    rw [dispatchInput]
    split
    · exact List.prefix_rfl
    · split <;> exact List.prefix_rfl
    · exact List.prefix_rfl
  | prepareLooper => exact List.prefix_rfl
  | moved e => cases e <;> exact List.prefix_rfl
  | queueAction action => exact List.prefix_rfl
  | flush =>
    simp only [next, flushPendingActions]
    split
    · exact List.prefix_rfl
    · split <;> exact List.prefix_rfl
  | main t =>
    change c.offered <+: (c.turn P t).offered
    exact offered_turn c t ▸ List.prefix_rfl

/-- **Every step in order keeps the gesture in one hand**, where the inputs
are gestures. -/
theorem played_next (h : c.Played) (e : Event φ) (hok : c.Orderly P e)
    (hkept : (c.next P e).Kept) (hoffered : (gesture (touches (c.next P e).offered)).isSome) :
    (c.next P e).Played := by
  cases e with
  | input i => exact played_offer h hok hoffered
  | dispatch =>
    change c.dispatchInput.Played
    rw [dispatchInput]
    split
    · exact h
    · split <;> exact { h with }
    · exact { h with }
  | prepareLooper => exact { h with }
  | moved e => cases e <;> exact { h with }
  | queueAction action => exact { h with }
  | flush =>
    simp only [next, flushPendingActions]
    split
    · exact h
    · split <;> exact { h with }
  | main t => exact played_turn h hok hkept

/-- **Nothing is lost and one activity has the gesture.** -/
def Sound (c : Controller φ) : Prop :=
  c.Kept ∧ (c.Offered → c.Played)

theorem sound_next (h : c.Sound) (e : Event φ) (hok : c.Orderly P e) : (c.next P e).Sound := by
  have hkept := kept_next h.1 e hok
  refine ⟨hkept, fun hoffered => ?_⟩
  have hbefore : c.Offered :=
    isSome_gesture_of_begins ((offered_next c e).filterMap _) hoffered
  exact played_next (h.2 hbefore) e hok hkept hoffered

/-- When nothing is left to do, nothing waits. -/
theorem Kept.handed_eq (h : c.Kept) (hrest : c.AtRest) : c.handed = c.accepted := by
  have hpending : c.pendingInputs = [] := by
    by_contra hne
    rcases h.due (.inl hne) hrest.ready with hd | hd | ⟨rest, hd⟩ | ⟨-, hd | hd⟩
    · rw [hrest.queue] at hd
      cases hd
    · rw [hrest.main] at hd
      cases hd
    · rw [hrest.main] at hd
      cases hd
    · rw [hrest.queue] at hd
      cases hd
    · exact absurd hrest.flushers (Nat.ne_of_gt hd)
  have horder := h.order
  rw [line, posted, reading, hpending, hrest.queue, hrest.main, hrest.reader] at horder
  simpa [Main.taken, Main.held] using horder

/-- The touches are where they belong. -/
theorem faithful_of_kept (hkept : c.Kept) (hplayed : c.Played) : c.Faithful := by
  obtain ⟨holder, hreceived, hopen⟩ := hplayed.holder
  refine ⟨hkept.handed_begins, ?_, hkept.handed_eq, fun r => ?_, fun hrest hcomplete r => ?_⟩
  · exact hkept.increasing.sublist (hkept.handed_begins.sublist.map _)
  · rw [hreceived r]
    rfl
  · have hnone : holder = none := by
      by_contra hholder
      have hhanded := hopen hholder
      rw [hkept.handed_eq hrest, hcomplete] at hhanded
      cases hhanded
    rw [hreceived r, hnone, decide_eq_false (by simp)]

theorem sound_start (x y : φ) : (start x y).Sound := by
  refine ⟨⟨rfl, List.Pairwise.nil, ?_, fun _ => ⟨rfl, rfl⟩, ?_, ?_⟩, fun _ => ⟨?_, ?_⟩⟩
  · rintro i ⟨⟩
  · rintro i ⟨⟩
  · rintro (hne | hne)
    · exact absurd rfl hne
    · exact absurd rfl hne
  · exact ⟨false, rfl, fun hno => absurd hno Bool.false_ne_true⟩
  · exact ⟨none, fun _ => rfl, fun hne => absurd rfl hne⟩

end Controller

/-! ## Whole runs -/

/-- Pixels are whole numbers, and nothing comes by way of a decor view. -/
def wholePixels : Platform ℤ where
  toLowerCase := id
  forwards := false
  sub := (· - ·)
  abs y := (y.natAbs : ℤ)
  lt x y := decide (x < y)
  sixty := 60
  minusSixty := -60

/-- An activity comes to the tab, and the main thread is ready and idle. -/
def opening (tab : String) : List (Event ℤ) :=
  [.prepareLooper, .moved (.register (some (java tab)) none none none true none), .flush, .main {}]

/-- A motion is read, posted and applied, and nothing is left to do. -/
def motion (generation : Int64) (action : Int32) (y : ℤ) : List (Event ℤ) :=
  [.input { generation, action, x := 0, y }, .dispatch, .main {}, .main {}, .main {}]

/-- The pointer goes down, moves and goes up, on an activity that is no
launcher. -/
def drag : List (Event ℤ) :=
  opening "app" ++ motion 1 actionDown 200 ++ motion 2 actionMove 100 ++ motion 3 actionUp 0

/-- The pointer goes down on the launcher, and up far above. -/
def swipeUp : List (Event ℤ) :=
  opening "launcher" ++ motion 1 actionDown 200 ++ motion 2 actionUp 0

/-- A touch that comes before there is a looper. -/
def earlyTap : List (Event ℤ) :=
  [.input { generation := 1, action := actionDown, x := 0, y := 200 }, .dispatch, .dispatch,
    .input { generation := 2, action := actionUp, x := 0, y := 200 }, .dispatch, .dispatch] ++
    opening "app"

end Touch

end Framework

end Muplar
