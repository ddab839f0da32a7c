import Muplar.Common.Run
/-!
# The frame presenter

Frames of the current root are presented on the main looper: by what
`schedule` and `requestFrame` post, one after the other, and by a heartbeat
that comes back. A present goes on over several events: drawing may notify
the observers, and may call back into the presenter. A runnable or the
heartbeat starts only when none goes on.

A request does nothing if one is posted already, for whatever root, or if
a present goes on; and what is posted does nothing if 16 ms have not
passed since the last present. So a request can be lost, and is not where
every step that turns an attempt away leaves another one
(`notLost_throughout_iff`).

Roots are not null and outlive what is said of them, and drawing and
`writeBitmapNative` succeed.
-/

namespace Muplar

namespace Framework

namespace FramePresenter

open Machine

variable {ρ : Type}

/-! ## The presenter -/

/-- What is posted to the looper: by `schedule`, and by `requestFrame`. -/
inductive Runnable (ρ : Type)
  | scheduled (root : ρ)
  | frame (root : ρ)
deriving DecidableEq

def Runnable.root : Runnable ρ → ρ
  | scheduled root => root
  | frame root => root

/-- The fields of `MuplarFramePresenter`, the looper, and the clock. -/
structure State (ρ : Type) where
  currentRoot : Option ρ
  burstFrames : ℕ
  frameRequested : Bool
  isPresenting : Bool
  hasPresentedAny : Bool
  loopStarted : Bool
  lastFrameUptime : ℕ
  uptime : ℕ
  queue : List (Runnable ρ)
  /-- the roots with observers -/
  observed : List ρ
  /-- the present that goes on, with the root to be observed after it -/
  drawing : Option (Option ρ)
  /-- Where a frame was asked for while the root was current, and no present
  of it has started since. -/
  asked : List ρ

def State.initial (uptime : ℕ) : State ρ where
  currentRoot := none
  burstFrames := 0
  frameRequested := false
  isPresenting := false
  hasPresentedAny := false
  loopStarted := false
  lastFrameUptime := 0
  uptime := uptime
  queue := []
  observed := []
  drawing := none
  asked := []

/-- `attachObserver`, for the runnable that does it. -/
def State.observe (s : State ρ) : Option ρ → State ρ
  | none => s
  | some root => { s with observed := root :: s.observed }

section

variable [DecidableEq ρ]

/-- `present`, up to where it draws; `path` tells whether there is a path
for frames, and `after` is the root to be observed when it is over. -/
def present (path : Bool) (root : ρ) (after : Option ρ) (s : State ρ) : State ρ :=
  if path = false then s.observe after
  else if s.isPresenting = true then s.observe after
  else if s.uptime - s.lastFrameUptime < 16 then s.observe after
  else
    { s with
      lastFrameUptime := s.uptime
      isPresenting := true
      drawing := some after
      asked := s.asked.filter fun other => other ≠ root }

/-- The end of `present`. -/
def finish (s : State ρ) : State ρ :=
  match s.drawing with
  | none => s
  | some after =>
    { s with isPresenting := false, hasPresentedAny := true, drawing := none }.observe after

/-- `requestFrame`. -/
def requestFrame (root : ρ) (s : State ρ) : State ρ :=
  if s.currentRoot ≠ some root then s
  else if s.frameRequested = true ∨ s.isPresenting = true then
    { s with asked := root :: s.asked }
  else
    { s with
      asked := root :: s.asked
      frameRequested := true
      queue := s.queue ++ [.frame root] }

/-- `requestImmediateFrame`. -/
def requestImmediateFrame (s : State ρ) : State ρ :=
  match s.currentRoot with
  | none => s
  | some root => requestFrame root s

/-- `requestBurst`. -/
def requestBurst (s : State ρ) : State ρ :=
  match s.currentRoot with
  | none => s
  | some _ => requestImmediateFrame { s with burstFrames := max s.burstFrames 12 }

/-- `onDraw` and `onGlobalLayout`. -/
def notify (root : ρ) (s : State ρ) : State ρ :=
  if root ∉ s.observed then s
  else if s.isPresenting = true then s
  else requestFrame root s

/-- `schedule`, which starts the heartbeat if there is a path. -/
def schedule (path : Bool) (root : ρ) (s : State ρ) : State ρ :=
  { s with
    currentRoot := some root
    burstFrames := 30
    queue := s.queue ++ [.scheduled root]
    loopStarted := s.loopStarted || path }

/-- `clear`. -/
def clear (s : State ρ) : State ρ :=
  { s with
    currentRoot := none
    burstFrames := 0
    frameRequested := false
    hasPresentedAny := false
    isPresenting := false }

/-- What was posted. -/
def runPosted (path : Bool) (s : State ρ) : Runnable ρ → State ρ
  | .scheduled root =>
    if s.currentRoot ≠ some root then s
    else present path root (some root) s
  | .frame root =>
    if s.currentRoot ≠ some root then { s with frameRequested := false }
    else present path root none { s with frameRequested := false }

/-- The looper takes what comes first. -/
def next (path : Bool) (s : State ρ) : State ρ :=
  if s.drawing ≠ none then s
  else
    match s.queue with
    | [] => s
    | r :: rest => runPosted path { s with queue := rest } r

/-- The heartbeat of `startLoop`, which finds the root dirty or not. -/
def heartbeat (path dirty : Bool) (s : State ρ) : State ρ :=
  if s.drawing ≠ none ∨ s.loopStarted = false then s
  else
    match s.currentRoot with
    | none => s
    | some root =>
      if 0 < s.burstFrames ∨ dirty = true ∨ s.hasPresentedAny = false then
        present path root none { s with burstFrames := s.burstFrames - 1 }
      else s

inductive Event (ρ : Type)
  | schedule (root : ρ)
  | requestImmediateFrame
  | requestBurst
  | notify (root : ρ)
  | next
  | heartbeat (dirty : Bool)
  | finish
  | clear
  | tick (ms : ℕ)
deriving DecidableEq

def step (path : Bool) (s : State ρ) : Event ρ → State ρ
  | .schedule root => schedule path root s
  | .requestImmediateFrame => requestImmediateFrame s
  | .requestBurst => requestBurst s
  | .notify root => notify root s
  | .next => next path s
  | .heartbeat dirty => heartbeat path dirty s
  | .finish => finish s
  | .clear => clear s
  | .tick ms => { s with uptime := s.uptime + ms }

end

/-! ## What is to hold -/

/-- A runnable for a root. -/
def Queued (queue : List (Runnable ρ)) (root : ρ) : Prop :=
  ∃ r ∈ queue, r.root = root

/-- An attempt at a root is pending, with so many frames of the heartbeat
left. -/
def Pending (queue : List (Runnable ρ)) (loopStarted : Bool) (burstFrames : ℕ) (root : ρ) : Prop :=
  Queued queue root ∨ loopStarted = true ∧ 0 < burstFrames

/-- **No request is lost**: where the current root was asked for a frame,
an attempt is pending. -/
def NotLost (s : State ρ) : Prop :=
  ∀ root, s.currentRoot = some root → root ∈ s.asked →
    Pending s.queue s.loopStarted s.burstFrames root

section

variable {s : State ρ} {root : ρ} {after : Option ρ}

theorem notLost_initial (uptime : ℕ) : NotLost (State.initial uptime : State ρ) :=
  fun _ h => absurd h.symm (Option.some_ne_none _)

theorem notLost_observe : NotLost (s.observe after) ↔ NotLost s := by
  cases after with
  | none => exact Iff.rfl
  | some root => exact Iff.rfl

/-- It is about the current root alone. -/
theorem notLost_iff (hroot : s.currentRoot = some root) : NotLost s ↔
    (root ∈ s.asked → Pending s.queue s.loopStarted s.burstFrames root) := by
  constructor
  · intro h
    exact h root hroot
  · intro h root' hroot' hasked
    obtain rfl := Option.some.inj (hroot.symm.trans hroot')
    exact h hasked

/-- Without its head, the queue is enough unless that is for a root that
asks. -/
theorem notLost_tail {r : Runnable ρ} {rest : List (Runnable ρ)} (h : NotLost s)
    (hqueue : s.queue = r :: rest) : NotLost { s with queue := rest } ↔
      (s.currentRoot = some r.root → r.root ∈ s.asked →
        Pending rest s.loopStarted s.burstFrames r.root) := by
  constructor
  · intro htail hroot hasked
    exact htail r.root hroot hasked
  · intro hhead root hroot hasked
    rcases h root hroot hasked with ⟨r', hr', rfl⟩ | hheartbeat
    · rw [hqueue] at hr'
      rcases List.mem_cons.mp hr' with rfl | hr'
      · exact hhead hroot hasked
      · exact Or.inl ⟨r', hr', rfl⟩
    · exact Or.inr hheartbeat

end

/-! ## When it does -/

/-- `present` starts. -/
def MayPresent (path : Bool) (s : State ρ) : Prop :=
  path = true ∧ s.isPresenting = false ∧ 16 ≤ s.uptime - s.lastFrameUptime

/-- `requestFrame` posts nothing for the current root. -/
def TurnsAway (s : State ρ) : Prop :=
  s.frameRequested = true ∨ s.isPresenting = true

/-- **A step that turns an attempt away leaves another one**: a request
that posts nothing, a runnable for the current root and a heartbeat that
do not start the present that is asked for. -/
def Leaves (path : Bool) (s : State ρ) : Event ρ → Prop
  | .requestImmediateFrame => TurnsAway s → ∀ root, s.currentRoot = some root →
      Pending s.queue s.loopStarted s.burstFrames root
  -- a burst fills the heartbeat's frames up
  | .requestBurst => TurnsAway s → ∀ root, s.currentRoot = some root →
      Queued s.queue root ∨ s.loopStarted = true
  | .notify root => root ∈ s.observed → s.isPresenting = false → s.frameRequested = true →
      s.currentRoot = some root → Pending s.queue s.loopStarted s.burstFrames root
  | .next => s.drawing = none → ¬MayPresent path s → ∀ r rest, s.queue = r :: rest →
      s.currentRoot = some r.root → r.root ∈ s.asked →
        Pending rest s.loopStarted s.burstFrames r.root
  | .heartbeat _ => s.drawing = none → s.loopStarted = true → ¬MayPresent path s →
      s.burstFrames = 1 → ∀ root ∈ s.asked, s.currentRoot = some root → Queued s.queue root
  | .schedule _ | .finish | .clear | .tick _ => True

/-! ## One step -/

variable [DecidableEq ρ] {path : Bool} {s : State ρ} {root : ρ} {after : Option ρ}

/-- **A present that starts is what was asked for**; one that does not
changes nothing. -/
theorem notLost_present (hroot : s.currentRoot = some root) :
    NotLost (present path root after s) ↔ MayPresent path s ∨ NotLost s := by
  unfold present
  split_ifs with hpath hpresenting hthrottled
  · rw [notLost_observe]
    refine (or_iff_right ?_).symm
    rintro ⟨hpath', -, -⟩
    exact absurd (hpath.symm.trans hpath') Bool.false_ne_true
  · rw [notLost_observe]
    refine (or_iff_right ?_).symm
    rintro ⟨-, hidle, -⟩
    exact absurd (hidle.symm.trans hpresenting) Bool.false_ne_true
  · rw [notLost_observe]
    refine (or_iff_right ?_).symm
    rintro ⟨-, -, hlater⟩
    omega
  · have hmay : MayPresent path s :=
      ⟨Bool.of_not_eq_false hpath, Bool.of_not_eq_true hpresenting, by omega⟩
    refine iff_of_true (fun root' hroot' hasked => ?_) (Or.inl hmay)
    obtain rfl := Option.some.inj (hroot.symm.trans hroot')
    -- the root is no longer one of those that asked
    have hother := (List.mem_filter.mp hasked).2
    exact absurd rfl (of_decide_eq_true hother)

/-- **A request is posted, or turned away.** -/
theorem notLost_requestFrame (hroot : s.currentRoot = some root) :
    NotLost (requestFrame root s) ↔
      (TurnsAway s → Pending s.queue s.loopStarted s.burstFrames root) := by
  unfold requestFrame
  rw [if_neg (not_not.mpr hroot)]
  by_cases haway : TurnsAway s
  · have hasked : root ∈ root :: s.asked := List.mem_cons_self
    rw [if_pos (show s.frameRequested = true ∨ s.isPresenting = true from haway),
      notLost_iff (s := { s with asked := root :: s.asked }) hroot, forall_prop_of_true hasked]
    exact ⟨fun hpending _ => hpending, fun hpending => hpending haway⟩
  · rw [if_neg (show ¬(s.frameRequested = true ∨ s.isPresenting = true) from haway)]
    refine iff_of_true (fun root' hroot' _ => ?_) fun h => absurd h haway
    obtain rfl := Option.some.inj (hroot.symm.trans hroot')
    exact Or.inl ⟨.frame root, List.mem_append_right _ List.mem_cons_self, rfl⟩

theorem notLost_requestImmediateFrame (h : NotLost s) : NotLost (requestImmediateFrame s) ↔
    (TurnsAway s → ∀ root, s.currentRoot = some root →
      Pending s.queue s.loopStarted s.burstFrames root) := by
  unfold requestImmediateFrame
  cases hroot : s.currentRoot with
  | none => exact iff_of_true h fun _ _ hnone => absurd hnone.symm (Option.some_ne_none _)
  | some root =>
    refine (notLost_requestFrame hroot).trans ⟨fun hpending haway root' hroot' => ?_,
      fun hpending haway => hpending haway root rfl⟩
    obtain rfl := Option.some.inj hroot'
    exact hpending haway

theorem notLost_requestBurst (h : NotLost s) : NotLost (requestBurst s) ↔
    (TurnsAway s → ∀ root, s.currentRoot = some root →
      Queued s.queue root ∨ s.loopStarted = true) := by
  unfold requestBurst
  split
  · next hnone =>
    refine iff_of_true h fun _ root hroot => ?_
    exact absurd (hroot.symm.trans hnone) (Option.some_ne_none root)
  · next root hroot =>
    have hburst : NotLost { s with burstFrames := max s.burstFrames 12 } := by
      intro root' hroot' hasked
      refine (h root' hroot' hasked).imp_right fun hheartbeat => ⟨hheartbeat.1, ?_⟩
      exact Nat.lt_of_lt_of_le hheartbeat.2 (Nat.le_max_left _ _)
    refine (notLost_requestImmediateFrame hburst).trans ?_
    -- twelve frames are left to a heartbeat that runs
    have htwelve : 0 < max s.burstFrames 12 := by omega
    exact forall_congr' fun _ => forall_congr' fun _ => forall_congr' fun _ =>
      or_congr_right (and_iff_left htwelve)

theorem notLost_notify (h : NotLost s) : NotLost (notify root s) ↔
    (root ∈ s.observed → s.isPresenting = false → s.frameRequested = true →
      s.currentRoot = some root → Pending s.queue s.loopStarted s.burstFrames root) := by
  unfold notify
  by_cases hobserved : root ∈ s.observed
  · rw [if_neg (not_not.mpr hobserved), forall_prop_of_true hobserved]
    split_ifs with hpresenting
    · exact iff_of_true h fun hidle => absurd (hidle.symm.trans hpresenting) Bool.false_ne_true
    rw [Bool.not_eq_true] at hpresenting
    by_cases hroot : s.currentRoot = some root
    · rw [notLost_requestFrame hroot]
      constructor
      · intro hpending _ hrequested _
        exact hpending (Or.inl hrequested)
      · rintro hpending (hrequested | hpresenting')
        · exact hpending hpresenting hrequested hroot
        · exact absurd (hpresenting.symm.trans hpresenting') Bool.false_ne_true
    · -- a request for another root is none
      unfold requestFrame
      rw [if_pos hroot]
      exact iff_of_true h fun _ _ hroot' => absurd hroot' hroot
  · rw [if_pos hobserved]
    exact iff_of_true h fun hin => absurd hin hobserved

/-- What is posted presents the current root, if it may. -/
theorem notLost_runPosted (r : Runnable ρ) : NotLost (runPosted path s r) ↔
    s.currentRoot = some r.root ∧ MayPresent path s ∨ NotLost s := by
  cases r with
  | scheduled root =>
    rw [runPosted]
    by_cases hroot : s.currentRoot = some root
    · refine Iff.trans ?_ (or_congr_left (and_iff_right hroot).symm)
      rw [if_neg (not_not.mpr hroot)]
      exact notLost_present hroot
    · rw [if_pos hroot]
      exact (or_iff_right fun h => hroot h.1).symm
  | frame root =>
    rw [runPosted]
    by_cases hroot : s.currentRoot = some root
    · refine Iff.trans ?_ (or_congr_left (and_iff_right hroot).symm)
      rw [if_neg (not_not.mpr hroot)]
      exact notLost_present (s := { s with frameRequested := false }) hroot
    · rw [if_pos hroot]
      exact (or_iff_right fun h => hroot h.1).symm

theorem notLost_next (h : NotLost s) : NotLost (next path s) ↔
    (s.drawing = none → ¬MayPresent path s → ∀ r rest, s.queue = r :: rest →
      s.currentRoot = some r.root → r.root ∈ s.asked →
        Pending rest s.loopStarted s.burstFrames r.root) := by
  unfold next
  by_cases hdrawing : s.drawing = none
  · rw [if_neg (not_not.mpr hdrawing), forall_prop_of_true hdrawing]
    cases hqueue : s.queue with
    | nil => exact iff_of_true h fun _ _ _ hcons => absurd hcons (List.cons_ne_nil _ _).symm
    | cons r rest =>
      refine (notLost_runPosted r).trans ?_
      rw [notLost_tail h hqueue]
      -- the flags that the runnable resets play no part
      constructor
      · rintro (⟨-, hmay⟩ | hhead) hnot r' rest' hcons
        · exact absurd hmay hnot
        · obtain ⟨rfl, rfl⟩ := List.cons.inj hcons
          exact hhead
      · intro hhead
        by_cases hmay : MayPresent path s
        · by_cases hroot : s.currentRoot = some r.root
          · exact Or.inl ⟨hroot, hmay⟩
          · exact Or.inr fun hroot' => absurd hroot' hroot
        · exact Or.inr (hhead hmay r rest rfl)
  · rw [if_pos hdrawing]
    exact iff_of_true h fun hnone => absurd hnone hdrawing

/-- A heartbeat takes the last frame of a burst, if it takes one that
matters. -/
theorem notLost_heartbeat (h : NotLost s) (dirty : Bool) : NotLost (heartbeat path dirty s) ↔
    (s.drawing = none → s.loopStarted = true → ¬MayPresent path s → s.burstFrames = 1 →
      ∀ root ∈ s.asked, s.currentRoot = some root → Queued s.queue root) := by
  unfold heartbeat
  by_cases hbusy : s.drawing ≠ none ∨ s.loopStarted = false
  · rw [if_pos hbusy]
    refine iff_of_true h fun hdrawing hloop => ?_
    rcases hbusy with hdrawing' | hloop'
    · exact absurd hdrawing hdrawing'
    · exact absurd (hloop'.symm.trans hloop) Bool.false_ne_true
  rw [if_neg hbusy]
  rw [not_or, not_not, Bool.not_eq_false] at hbusy
  obtain ⟨hdrawing, hloop⟩ := hbusy
  rw [forall_prop_of_true hdrawing, forall_prop_of_true hloop]
  split
  · next hnone =>
    refine iff_of_true h fun _ _ root _ hroot => ?_
    exact absurd (hroot.symm.trans hnone) (Option.some_ne_none root)
  · next root hroot =>
    by_cases hbeats : 0 < s.burstFrames ∨ dirty = true ∨ s.hasPresentedAny = false
    · rw [if_pos hbeats, notLost_present (s := { s with burstFrames := s.burstFrames - 1 }) hroot]
      constructor
      · rintro (hmay | hkept) hnot hlast root' hasked hroot'
        · exact absurd hmay hnot
        · refine (hkept root' hroot' hasked).resolve_right fun hheartbeat => ?_
          have hleft : 0 < s.burstFrames - 1 := hheartbeat.2
          omega
      · intro hqueued
        by_cases hmay : MayPresent path s
        · exact Or.inl hmay
        · refine Or.inr fun root' hroot' hasked => ?_
          -- the burst is over with this frame, or goes on
          by_cases hlast : s.burstFrames = 1
          · exact Or.inl (hqueued hmay hlast root' hasked hroot')
          · refine (h root' hroot' hasked).imp_right fun hheartbeat => ⟨hloop, ?_⟩
            have hburst := hheartbeat.2
            show 0 < s.burstFrames - 1
            omega
    · rw [if_neg hbeats]
      rw [not_or, Nat.not_lt] at hbeats
      refine iff_of_true h fun _ hlast => ?_
      omega

/-- **One step** loses no request exactly where it leaves an attempt. -/
theorem notLost_step (h : NotLost s) (e : Event ρ) :
    NotLost (step path s e) ↔ Leaves path s e := by
  cases e with
  | schedule root =>
    refine iff_of_true (fun root' hroot' _ => ?_) trivial
    obtain rfl := Option.some.inj hroot'
    exact Or.inl ⟨.scheduled root, List.mem_append_right _ List.mem_cons_self, rfl⟩
  | requestImmediateFrame => exact notLost_requestImmediateFrame h
  | requestBurst => exact notLost_requestBurst h
  | notify root => exact notLost_notify h
  | next => exact notLost_next h
  | heartbeat dirty => exact notLost_heartbeat h dirty
  | finish =>
    refine iff_of_true ?_ trivial
    show NotLost (finish s)
    unfold finish
    split
    · exact h
    · exact notLost_observe.mpr h
  | clear => exact iff_of_true (fun _ hnone => absurd hnone.symm (Option.some_ne_none _)) trivial
  | tick ms => exact iff_of_true h trivial

/-! ## Runs -/

/-- **In no state is a request lost** exactly where every step that turns
an attempt away leaves another one. -/
theorem notLost_throughout_iff (path : Bool) (uptime : ℕ) (es : List (Event ρ)) :
    Throughout (step path) NotLost (State.initial uptime) es ↔
      Meets (step path) (Leaves path) (State.initial uptime) es :=
  throughout_iff_meets_of_breaks (fun _ e h hleaves => (notLost_step h e).mpr hleaves)
    (fun _ h => h) (fun _ e h hlost hkept => hlost ((notLost_step h e).mp hkept))
    (notLost_initial uptime)

/-- A root whose thirty frames are presented, every half second; one more
is asked for a moment later. -/
def idleThenDrawn : List (Event ℕ) :=
  [.schedule 0, .next, .finish] ++
    (List.replicate 30 [.tick 500, .heartbeat false, .finish]).flatten ++
    [.tick 1, .notify 0, .next]

/-- **The throttle loses a request.** -/
theorem throttled_request_lost :
    ¬Throughout (step true) NotLost (State.initial 1000) idleThenDrawn := by
  intro hkept
  have hroot : (run (step true) (State.initial 1000) idleThenDrawn).currentRoot = some 0 := by
    decide +kernel
  have hasked : 0 ∈ (run (step true) (State.initial 1000) idleThenDrawn).asked := by
    decide +kernel
  have hqueue : (run (step true) (State.initial 1000) idleThenDrawn).queue = [] := by
    decide +kernel
  have hburst : (run (step true) (State.initial 1000) idleThenDrawn).burstFrames = 0 := by
    decide +kernel
  rcases hkept.last 0 hroot hasked with ⟨r, hr, -⟩ | ⟨-, hmore⟩
  · rw [hqueue] at hr
    exact absurd hr List.not_mem_nil
  · rw [hburst] at hmore
    exact absurd hmore (Nat.lt_irrefl 0)

end FramePresenter

end Framework

end Muplar
