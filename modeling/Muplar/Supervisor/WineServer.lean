import Mathlib.Data.Nat.Basic
import Mathlib.Logic.Function.Basic
import Muplar.Common.Run
/-!
# The supervisor — a Windows service and the end of its guard

`WineServerGuard` has a thread that keeps one child running, and `stop`
ends both. The thread says in `pid_` which child it waits for; `stop` sets
a flag, signals the child it finds in `pid_`, and joins the thread. A
child that is spawned after the thread last looked at the flag, and
published after `stop` looked at `pid_`, is signalled by nobody: the pipe
that could wake the thread is made and never written.
-/

namespace Muplar

namespace Supervisor

/-! ## The two threads -/

/-- `RestartPolicy`; `backoff` is the delay times the factor, as an
`int`. -/
structure RestartPolicy where
  backoff : ℤ → ℤ
  maxDelayMs : ℤ
  maxCrashesInWindow : ℤ
  crashWindowMs : ℕ

/-- Where `monitor_loop` is. -/
inductive MonitorPc
  /-- the head of the loop -/
  | check
  /-- the crash window, and the delay -/
  | gate
  /-- the second look at the flag, after the delay -/
  | recheck
  | spawn
  /-- a child is there, and `pid_` has not been stored -/
  | publish (pid : ℕ)
  /-- in `kqueue_wait_pid` -/
  | wait (pid : ℕ)
  /-- the wait is over -/
  | unpublish (stopped : Bool)
  | done
  deriving DecidableEq

/-- Where `stop` is. -/
inductive StopPc
  | idle
  /-- the flag is set -/
  | read
  /-- before `SIGTERM` -/
  | term (pid : ℕ)
  /-- in the three seconds after -/
  | grace (pid : ℕ)
  /-- in `waitpid` -/
  | reap (pid : ℕ)
  | clear
  | join
  | returned
  deriving DecidableEq

/-- A guard and its children. Process ids are given out in order. -/
structure Guard where
  stopRequested : Bool
  pid : ℕ
  /-- something can be read from `stop_pipe` -/
  wakeup : Bool
  crashTimes : List ℕ
  currentDelayMs : ℤ
  monitor : MonitorPc
  stop : StopPc
  spawned : ℕ
  alive : ℕ → Bool
  signalled : ℕ → Bool

/-- A step: of the monitor, with the time and whether a spawn succeeds; of
`stop`; or a child ends. -/
inductive Event
  | monitor (now : ℕ) (spawns : Bool)
  | stop
  | exit (pid : ℕ)

def Guard.signal (g : Guard) (pid : ℕ) : Guard :=
  { g with signalled := Function.update g.signalled pid true }

/-- `crash_times_` without what is older than the window. -/
def purge (policy : RestartPolicy) (now : ℕ) (crashTimes : List ℕ) : List ℕ :=
  if 0 < policy.maxCrashesInWindow then
    crashTimes.filter fun t => now ≤ t + policy.crashWindowMs
  else crashTimes

/-- The delay after a crash. -/
def nextDelay (policy : RestartPolicy) (delay : ℤ) : ℤ :=
  if delay ≤ 0 then 1000 else min (policy.backoff delay) policy.maxDelayMs

/-- One step of `monitor_loop`; a wait that is not over stays. -/
def monitorStep (policy : RestartPolicy) (now : ℕ) (spawns : Bool) (g : Guard) : Guard :=
  match g.monitor with
  | .check => { g with monitor := if g.stopRequested then .done else .gate }
  | .gate =>
    let crashTimes := purge policy now g.crashTimes
    { g with
      crashTimes
      monitor :=
        if 0 < policy.maxCrashesInWindow ∧ policy.maxCrashesInWindow ≤ crashTimes.length then .done
        else if 0 < g.currentDelayMs ∧ crashTimes ≠ [] then .recheck
        else .spawn }
  | .recheck => { g with monitor := if g.stopRequested then .done else .spawn }
  | .spawn =>
    if spawns then
      { g with
        spawned := g.spawned + 1
        alive := Function.update g.alive (g.spawned + 1) true
        signalled := Function.update g.signalled (g.spawned + 1) false
        monitor := .publish (g.spawned + 1) }
    else { g with monitor := .check }
  | .publish pid => { g with pid, monitor := .wait pid }
  | .wait pid =>
    if !g.alive pid then { g with monitor := .unpublish false }
    else if g.wakeup then { g with monitor := .unpublish true }
    else g
  | .unpublish stopped =>
    if stopped then { g with pid := 0, monitor := .done }
    else
      { g with
        pid := 0
        crashTimes := g.crashTimes ++ [now]
        currentDelayMs := nextDelay policy g.currentDelayMs
        monitor := .check }
  | .done => g

/-- One step of `stop`; `waitpid` and `join` wait. -/
def stopStep (g : Guard) : Guard :=
  match g.stop with
  | .idle => { g with stopRequested := true, stop := .read }
  | .read => { g with stop := if g.pid = 0 then .join else .term g.pid }
  | .term pid => { g.signal pid with stop := .grace pid }
  | .grace pid => { (if g.alive pid then g.signal pid else g) with stop := .reap pid }
  | .reap pid => if g.alive pid then g else { g with stop := .clear }
  | .clear => { g with pid := 0, stop := .join }
  | .join => if g.monitor = .done then { g with stop := .returned } else g
  | .returned => g

def Guard.step (policy : RestartPolicy) (g : Guard) : Event → Guard
  | .monitor now spawns => monitorStep policy now spawns g
  | .stop => stopStep g
  | .exit pid => { g with alive := Function.update g.alive pid false }

/-- `start`, where the guard was not running. -/
def Guard.started (initialDelayMs : ℤ) : Guard where
  stopRequested := false
  pid := 0
  wakeup := false
  crashTimes := []
  currentDelayMs := initialDelayMs
  monitor := .check
  stop := .idle
  spawned := 0
  alive _ := false
  signalled _ := false

/-! ## What should not be -/

/-- **Wedged.** `stop` joins a thread that waits for a child that lives,
was sent no signal, and nothing is in the pipe. -/
def Wedged (g : Guard) : Prop :=
  g.stop = .join ∧ g.wakeup = false ∧
    ∃ pid, g.monitor = .wait pid ∧ g.alive pid = true ∧ g.signalled pid = false

/-- `stop` has come back, and a child lives that was sent no signal. -/
def Orphaned (g : Guard) : Prop :=
  g.stop = .returned ∧ ∃ pid, g.alive pid = true ∧ g.signalled pid = false

/-- Neither. -/
def Safe (g : Guard) : Prop :=
  ¬Wedged g ∧ ¬Orphaned g

/-- `stop` has not looked at `pid_`. -/
def StopPc.unread : StopPc → Bool
  | .idle | .read => true
  | _ => false

/-- **In time.** The monitor stores the pid of a child that lives before
`stop` looks for it. -/
def PublishedInTime (g : Guard) : Event → Prop
  | .monitor _ _ => ∀ pid, g.monitor = .publish pid → g.alive pid = true → g.stop.unread = true
  | _ => True

/-! ## The invariant -/

/-- The child that the monitor has in hand. -/
def MonitorPc.child : MonitorPc → Option ℕ
  | .publish pid | .wait pid => some pid
  | _ => none

/-- Between a look at the flag and the store of a pid. -/
def MonitorPc.opening : MonitorPc → Bool
  | .gate | .recheck | .spawn | .publish _ => true
  | _ => false

/-- **The invariant of a guard.** A child that lives unsignalled is the
one in the monitor's hand; while the monitor opens, `stop` has read
nothing or read that there is nobody; and a child that is waited for is
one that `stop` will find, has found, or need not find. -/
structure Guard.Inv (g : Guard) : Prop where
  flag : g.stop ≠ .idle → g.stopRequested = true
  quiet : g.wakeup = false
  inHand : ∀ pid, g.alive pid = true → g.signalled pid = false → g.monitor.child = some pid
  opening : g.monitor.opening = true → g.stop.unread = true ∨ g.stop = .join
  unpublished : g.monitor.opening = true ∨ g.monitor = .check → g.pid = 0
  fresh : ∀ pid, g.monitor = .publish pid → g.signalled pid = false
  positive : ∀ pid, g.monitor.child = some pid → pid ≠ 0
  found : ∀ pid, g.monitor = .wait pid → g.stop.unread = true → g.pid = pid
  sought : ∀ pid, g.monitor = .wait pid → g.alive pid = true → g.signalled pid = false →
    g.stop.unread = true ∨ g.stop = .term pid
  joined : g.stop = .returned → g.monitor = .done

variable {policy : RestartPolicy} {g : Guard}

theorem started_inv (initialDelayMs : ℤ) : (Guard.started initialDelayMs).Inv where
  flag h := absurd rfl h
  quiet := rfl
  inHand _ h := absurd h Bool.false_ne_true
  opening h := absurd h Bool.false_ne_true
  unpublished _ := rfl
  fresh _ h := by cases h
  positive _ h := by cases h
  found _ h := by cases h
  sought _ h := by cases h
  joined h := by cases h

/-- No child of a guard is forgotten. -/
theorem Guard.Inv.safe (h : g.Inv) : Safe g := by
  constructor
  · rintro ⟨hjoin, -, pid, hwait, halive, hsignal⟩
    rcases h.sought pid hwait halive hsignal with hunread | hterm
    · rw [hjoin] at hunread
      cases hunread
    · rw [hjoin] at hterm
      cases hterm
  · rintro ⟨hreturned, pid, halive, hsignal⟩
    have hchild := h.inHand pid halive hsignal
    rw [h.joined hreturned] at hchild
    cases hchild

/-- A step of the monitor that gives nothing to anybody: it goes to a
place where it has no child, from one where it had none, or a dead one. -/
theorem Guard.Inv.move {g' : Guard} (h : g.Inv) (hstop : g'.stop = g.stop)
    (hflag : g'.stopRequested = g.stopRequested) (hquiet : g'.wakeup = g.wakeup)
    (halive : g'.alive = g.alive) (hsignalled : g'.signalled = g.signalled)
    (hidle : ∀ pid, g.monitor.child = some pid → g.alive pid = false)
    (hchild : g'.monitor.child = none)
    (hopening : g'.monitor.opening = true → g.monitor.opening = true ∨ g.stopRequested = false)
    (hpid : g'.monitor.opening = true ∨ g'.monitor = .check → g'.pid = 0)
    (hdone : g.monitor = .done → g'.monitor = .done) : g'.Inv where
  flag := by rw [hstop, hflag]; exact h.flag
  quiet := by rw [hquiet]; exact h.quiet
  inHand pid hlive hsignal := by
    rw [halive] at hlive
    rw [hsignalled] at hsignal
    have hdead := hidle pid (h.inHand pid hlive hsignal)
    rw [hlive] at hdead
    cases hdead
  opening ho := by
    rw [hstop]
    rcases hopening ho with hbefore | hnone
    · exact h.opening hbefore
    · have hunread : g.stop = .idle := by
        by_contra hidle
        rw [h.flag hidle] at hnone
        cases hnone
      exact Or.inl (by rw [hunread]; rfl)
  unpublished := hpid
  fresh pid hp := by rw [hp] at hchild; cases hchild
  positive pid hp := by rw [hchild] at hp; cases hp
  found pid hp := by rw [hp] at hchild; cases hchild
  sought pid hp := by rw [hp] at hchild; cases hchild
  joined hreturned := hdone (h.joined (by rw [← hstop]; exact hreturned))

/-- Nothing in hand is nothing that lives. -/
theorem no_child {g : Guard} (h : g.monitor.child = none) :
    ∀ pid, g.monitor.child = some pid → g.alive pid = false := by
  intro pid hpid
  rw [h] at hpid
  cases hpid

theorem spawn_inv (h : g.Inv) (hm : g.monitor = .spawn) (now : ℕ) (spawns : Bool) :
    (monitorStep policy now spawns g).Inv := by
  simp only [monitorStep, hm]
  have hpid : g.pid = 0 := h.unpublished (Or.inl (by rw [hm]; rfl))
  have hopening := h.opening (by rw [hm]; rfl)
  have hchild : g.monitor.child = none := by rw [hm]; rfl
  cases spawns with
  | false =>
    rw [if_neg Bool.false_ne_true]
    exact h.move rfl rfl rfl rfl rfl (no_child hchild) rfl (fun h => by cases h) (fun _ => hpid)
      (fun h => by rw [hm] at h; cases h)
  | true =>
    rw [if_pos rfl]
    exact {
      flag := h.flag
      quiet := h.quiet
      inHand := by
        intro pid halive hsignal
        by_cases hnew : pid = g.spawned + 1
        · rw [hnew]
          rfl
        · simp only [Function.update_of_ne hnew] at halive hsignal
          have hhand := h.inHand pid halive hsignal
          rw [hchild] at hhand
          cases hhand
      opening := fun _ => hopening
      unpublished := fun _ => hpid
      fresh := by
        intro pid hp
        cases hp
        exact Function.update_self _ _ _
      positive := by
        intro pid hp
        cases hp
        exact Nat.succ_ne_zero _
      found := by
        intro pid hp
        cases hp
      sought := by
        intro pid hp
        cases hp
      joined := by
        intro hreturned
        have hdone := h.joined hreturned
        rw [hm] at hdone
        cases hdone }

theorem publish_inv {pid : ℕ} (h : g.Inv) (hm : g.monitor = .publish pid)
    (hok : g.alive pid = true → g.stop.unread = true) (now : ℕ) (spawns : Bool) :
    (monitorStep policy now spawns g).Inv := by
  simp only [monitorStep, hm]
  exact {
    flag := h.flag
    quiet := h.quiet
    inHand := by
      intro q halive hsignal
      have hhand := h.inHand q halive hsignal
      rw [hm] at hhand
      exact hhand
    opening := by
      intro ho
      cases ho
    unpublished := by
      rintro (ho | ho) <;> cases ho
    fresh := by
      intro q hp
      cases hp
    positive := by
      intro q hp
      cases hp
      exact h.positive pid (by rw [hm]; rfl)
    found := by
      intro q hp _
      cases hp
      rfl
    sought := by
      intro q hp halive _
      cases hp
      exact Or.inl (hok halive)
    joined := by
      intro hreturned
      have hdone := h.joined hreturned
      rw [hm] at hdone
      cases hdone }

/-- **What the monitor keeps.** -/
theorem monitor_inv (h : g.Inv) {now : ℕ} {spawns : Bool}
    (hok : PublishedInTime g (.monitor now spawns)) : (monitorStep policy now spawns g).Inv := by
  cases hm : g.monitor with
  | check =>
    have hpid : g.pid = 0 := h.unpublished (Or.inr hm)
    simp only [monitorStep, hm]
    refine h.move rfl rfl rfl rfl rfl (no_child (by rw [hm]; rfl)) ?_ ?_ (fun _ => hpid)
      (fun h => by rw [hm] at h; cases h)
    · split <;> rfl
    · intro ho
      split at ho
      · cases ho
      · next hflag => exact Or.inr (by simpa using hflag)
  | gate =>
    have hpid : g.pid = 0 := h.unpublished (Or.inl (by rw [hm]; rfl))
    simp only [monitorStep, hm]
    refine h.move rfl rfl rfl rfl rfl (no_child (by rw [hm]; rfl)) ?_ (fun _ => Or.inl (by rw [hm]; rfl))
      (fun _ => hpid) (fun h => by rw [hm] at h; cases h)
    split
    · rfl
    · split <;> rfl
  | recheck =>
    have hpid : g.pid = 0 := h.unpublished (Or.inl (by rw [hm]; rfl))
    simp only [monitorStep, hm]
    refine h.move rfl rfl rfl rfl rfl (no_child (by rw [hm]; rfl)) ?_ (fun _ => Or.inl (by rw [hm]; rfl))
      (fun _ => hpid) (fun h => by rw [hm] at h; cases h)
    split <;> rfl
  | spawn => exact spawn_inv h hm now spawns
  | publish pid => exact publish_inv h hm (hok pid hm) now spawns
  | wait pid =>
    simp only [monitorStep, hm]
    by_cases halive : g.alive pid = true
    · simpa [halive, h.quiet] using h
    · have hdead : g.alive pid = false := by simpa using halive
      rw [if_pos (by rw [hdead]; rfl)]
      refine h.move rfl rfl rfl rfl rfl (fun q hq => ?_) rfl (fun ho => by cases ho)
        (by rintro (ho | ho) <;> cases ho) (fun h => by rw [hm] at h; cases h)
      rw [hm] at hq
      cases hq
      exact hdead
  | unpublish stopped =>
    simp only [monitorStep, hm]
    have hchild : g.monitor.child = none := by rw [hm]; rfl
    cases stopped with
    | false =>
      rw [if_neg Bool.false_ne_true]
      exact h.move rfl rfl rfl rfl rfl (no_child hchild) rfl (fun ho => by cases ho)
        (fun _ => rfl) (fun h => by rw [hm] at h; cases h)
    | true =>
      rw [if_pos rfl]
      exact h.move rfl rfl rfl rfl rfl (no_child hchild) rfl (fun ho => by cases ho)
        (fun _ => rfl) (fun _ => rfl)
  | done =>
    simp only [monitorStep, hm]
    exact h

/-- A step of `stop` that signals nobody, from a place where it had nobody
to signal. -/
theorem Guard.Inv.proceed {pc : StopPc} (h : g.Inv) (hidle : g.stop ≠ .idle)
    (hopening : g.monitor.opening = true → pc = .join)
    (hsought : ∀ pid, g.monitor = .wait pid → g.alive pid = true → g.signalled pid = false →
      pc = .term pid) (hread : pc.unread = false) (hjoined : pc = .returned → g.monitor = .done) :
    Guard.Inv { g with stop := pc } where
  flag _ := h.flag hidle
  quiet := h.quiet
  inHand := h.inHand
  opening ho := Or.inr (hopening ho)
  unpublished := h.unpublished
  fresh := h.fresh
  positive := h.positive
  found pid _ hunread := by
    rw [hread] at hunread
    cases hunread
  sought pid hwait halive hsignal := Or.inr (hsought pid hwait halive hsignal)
  joined := hjoined

theorem of_not_signalled {pid q : ℕ} (h : (g.signal pid).signalled q = false) :
    q ≠ pid ∧ g.signalled q = false := by
  have hne : q ≠ pid := by
    rintro rfl
    have hself : Function.update g.signalled q true q = false := h
    rw [Function.update_self] at hself
    cases hself
  exact ⟨hne, by rw [← h]; exact (Function.update_of_ne hne _ _).symm⟩

/-- A signal is no harm to a child that the monitor has published. -/
theorem Guard.Inv.signal (h : g.Inv) (pid : ℕ) (hclosed : g.monitor.opening = false) :
    (g.signal pid).Inv where
  flag := h.flag
  quiet := h.quiet
  inHand q halive hsignal := h.inHand q halive (of_not_signalled hsignal).2
  opening := h.opening
  unpublished := h.unpublished
  fresh q hq := by
    have hopen : g.monitor.opening = true := by rw [show g.monitor = .publish q from hq]; rfl
    rw [hclosed] at hopen
    cases hopen
  positive := h.positive
  found := h.found
  sought q hwait halive hsignal := h.sought q hwait halive (of_not_signalled hsignal).2
  joined := h.joined

/-- Once `stop` has read it, `pid_` can be cleared. -/
theorem Guard.Inv.forget (h : g.Inv) (hread : g.stop.unread = false) :
    Guard.Inv { g with pid := 0 } where
  flag := h.flag
  quiet := h.quiet
  inHand := h.inHand
  opening := h.opening
  unpublished _ := rfl
  fresh := h.fresh
  positive := h.positive
  found pid _ hunread := by
    rw [show g.stop.unread = true from hunread] at hread
    cases hread
  sought := h.sought
  joined := h.joined

/-- While `stop` sees to a child, the monitor does not open. -/
theorem Guard.Inv.closed (h : g.Inv) (hread : g.stop.unread = false) (hjoin : g.stop ≠ .join) :
    g.monitor.opening = false := by
  rw [← Bool.not_eq_true]
  intro ho
  rcases h.opening ho with hunread | heq
  · rw [hread] at hunread
    cases hunread
  · exact hjoin heq

/-- And after the first signal nobody is waited for who was sent none. -/
theorem Guard.Inv.settled (h : g.Inv) (hread : g.stop.unread = false)
    (hterm : ∀ pid, g.stop ≠ .term pid) :
    ∀ pid, g.monitor = .wait pid → g.alive pid = true → g.signalled pid ≠ false := by
  intro pid hwait halive hsignal
  rcases h.sought pid hwait halive hsignal with hunread | heq
  · rw [hread] at hunread
    cases hunread
  · exact hterm pid heq

/-- **What `stop` keeps.** -/
theorem stop_inv (h : g.Inv) : (stopStep g).Inv := by
  unfold stopStep
  split
  · next hs =>
    exact {
      flag := fun _ => rfl
      quiet := h.quiet
      inHand := h.inHand
      opening := fun _ => Or.inl rfl
      unpublished := h.unpublished
      fresh := h.fresh
      positive := h.positive
      found := fun pid hwait _ => h.found pid hwait (by rw [hs]; rfl)
      sought := fun _ _ _ _ => Or.inl rfl
      joined := by
        intro hreturned
        cases hreturned }
  · next hs =>
    have hnot : g.stop ≠ .idle := by rw [hs]; exact StopPc.noConfusion
    have hfound : ∀ pid, g.monitor = .wait pid → g.pid = pid := fun pid hwait =>
      h.found pid hwait (by rw [hs]; rfl)
    by_cases hpid : g.pid = 0
    · rw [if_pos hpid]
      refine h.proceed hnot (fun _ => rfl) (fun pid hwait _ _ => ?_) rfl (fun hr => by cases hr)
      exact absurd (by rw [← hfound pid hwait]; exact hpid) (h.positive pid (by rw [hwait]; rfl))
    · rw [if_neg hpid]
      refine h.proceed hnot (fun ho => absurd (h.unpublished (Or.inl ho)) hpid)
        (fun pid hwait _ _ => ?_) rfl (fun hr => by cases hr)
      rw [hfound pid hwait]
  · next pid hs =>
    have hread : g.stop.unread = false := by rw [hs]; rfl
    have hclosed := h.closed hread (by rw [hs]; exact StopPc.noConfusion)
    refine (h.signal pid hclosed).proceed (by rw [Guard.signal, hs]; exact StopPc.noConfusion)
      (fun ho => ?_) (fun q hwait halive hsignal => ?_) rfl (fun hr => by cases hr)
    · rw [show g.monitor.opening = true from ho] at hclosed
      cases hclosed
    · obtain ⟨hne, hbefore⟩ := of_not_signalled hsignal
      rcases h.sought q hwait halive hbefore with hunread | heq
      · rw [hread] at hunread
        cases hunread
      · rw [hs] at heq
        cases heq
        exact absurd rfl hne
  · next pid hs =>
    have hread : g.stop.unread = false := by rw [hs]; rfl
    have hclosed := h.closed hread (by rw [hs]; exact StopPc.noConfusion)
    have hsettled := h.settled hread (by rw [hs]; exact fun _ => StopPc.noConfusion)
    split
    · refine (h.signal pid hclosed).proceed (by rw [Guard.signal, hs]; exact StopPc.noConfusion)
        (fun ho => ?_) (fun q hwait halive hsignal => ?_) rfl (fun hr => by cases hr)
      · rw [show g.monitor.opening = true from ho] at hclosed
        cases hclosed
      · exact absurd (of_not_signalled hsignal).2 (hsettled q hwait halive)
    · refine h.proceed (by rw [hs]; exact StopPc.noConfusion) (fun ho => ?_)
        (fun q hwait halive hsignal => absurd hsignal (hsettled q hwait halive)) rfl
        (fun hr => by cases hr)
      rw [ho] at hclosed
      cases hclosed
  · next pid hs =>
    have hread : g.stop.unread = false := by rw [hs]; rfl
    have hclosed := h.closed hread (by rw [hs]; exact StopPc.noConfusion)
    have hsettled := h.settled hread (by rw [hs]; exact fun _ => StopPc.noConfusion)
    split
    · exact h
    · refine h.proceed (by rw [hs]; exact StopPc.noConfusion) (fun ho => ?_)
        (fun q hwait halive hsignal => absurd hsignal (hsettled q hwait halive)) rfl
        (fun hr => by cases hr)
      rw [ho] at hclosed
      cases hclosed
  · next hs =>
    have hread : g.stop.unread = false := by rw [hs]; rfl
    have hsettled := h.settled hread (by rw [hs]; exact fun _ => StopPc.noConfusion)
    exact (h.forget hread).proceed (by show g.stop ≠ .idle; rw [hs]; exact StopPc.noConfusion)
      (fun _ => rfl) (fun q hwait halive hsignal => absurd hsignal (hsettled q hwait halive)) rfl
      (fun hr => by cases hr)
  · next hs =>
    have hread : g.stop.unread = false := by rw [hs]; rfl
    have hsettled := h.settled hread (by rw [hs]; exact fun _ => StopPc.noConfusion)
    split
    · next hdone =>
      refine h.proceed (by rw [hs]; exact StopPc.noConfusion) (fun ho => ?_)
        (fun q hwait halive hsignal => absurd hsignal (hsettled q hwait halive)) rfl
        (fun _ => hdone)
      rw [hdone] at ho
      cases ho
    · exact h
  · exact h

/-- A child that ends is no trouble to anybody. -/
theorem exit_inv (h : g.Inv) (pid : ℕ) :
    Guard.Inv { g with alive := Function.update g.alive pid false } := by
  have hlive : ∀ q, Function.update g.alive pid false q = true → g.alive q = true := by
    intro q hq
    by_cases heq : q = pid
    · rw [heq, Function.update_self] at hq
      cases hq
    · rwa [Function.update_of_ne heq] at hq
  exact {
    flag := h.flag
    quiet := h.quiet
    inHand := fun q halive => h.inHand q (hlive q halive)
    opening := h.opening
    unpublished := h.unpublished
    fresh := h.fresh
    positive := h.positive
    found := h.found
    sought := fun q hwait halive => h.sought q hwait (hlive q halive)
    joined := h.joined }

/-! ## All runs -/

/-- **One step.** -/
theorem step_inv (h : g.Inv) {e : Event} (hok : PublishedInTime g e) : (g.step policy e).Inv := by
  cases e with
  | monitor now spawns => exact monitor_inv h hok
  | stop => exact stop_inv h
  | exit pid => exact exit_inv h pid

/-- A child that is published too late is waited for at once, and
forever. -/
theorem wedged_of_late (h : g.Inv) {e : Event} (hlate : ¬PublishedInTime g e) :
    Wedged (g.step policy e) := by
  cases e with
  | stop => exact absurd trivial hlate
  | exit pid => exact absurd trivial hlate
  | monitor now spawns =>
    simp only [PublishedInTime, not_forall] at hlate
    obtain ⟨pid, hm, halive, hread⟩ := hlate
    have hjoin : g.stop = .join := by
      rcases h.opening (by rw [hm]; rfl) with hunread | hjoin
      · exact absurd hunread hread
      · exact hjoin
    simp only [Guard.step, monitorStep, hm]
    exact ⟨hjoin, h.quiet, pid, rfl, halive, h.fresh pid hm⟩

/-- **Shutdown.** In every run of a guard that was started, `stop` neither
wedges nor leaves a child behind just where each child is published
before `stop` looks for it. -/
theorem shutdown_safe_iff (policy : RestartPolicy) (initialDelayMs : ℤ) (es : List Event) :
    Machine.Throughout (Guard.step policy) Safe (.started initialDelayMs) es ↔
      Machine.Meets (Guard.step policy) PublishedInTime (.started initialDelayMs) es :=
  Machine.throughout_iff_meets_of_breaks (fun _ _ h hok => step_inv h hok) (fun _ h => h.safe)
    (fun _ _ h hlate hsafe => hsafe.1 (wedged_of_late h hlate)) (started_inv initialDelayMs)

/-- The policy of the source, with the factor 2. -/
def defaultPolicy : RestartPolicy where
  backoff := (· * 2)
  maxDelayMs := 8000
  maxCrashesInWindow := 5
  crashWindowMs := 120000

/-- `stop` runs between the last look at the flag and the spawn. -/
def stopDuringSpawn : List Event :=
  [.monitor 0 true, .monitor 0 true, .stop, .stop, .monitor 0 true, .monitor 0 true]

/-- **A shutdown that wedges.** -/
theorem stop_during_spawn_wedges :
    ¬Machine.Throughout (Guard.step defaultPolicy) Safe (.started 0) stopDuringSpawn := by
  intro h
  exact h.last.1 ⟨rfl, rfl, 1, rfl, rfl, rfl⟩

end Supervisor

end Muplar
