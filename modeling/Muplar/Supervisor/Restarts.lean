import Mathlib.Algebra.Order.Ring.Int
import Mathlib.Logic.Function.Iterate
import Muplar.Common.Run
import Muplar.Common.Window
/-!
# Restarts — the delay after a crash and the limit of crashes

`WaylandGuard` and `WineServerGuard` each have a `monitor_loop` that
spawns a child, waits for its end, records the time of the crash, and
spawns again after a delay. Both loops are here with everything they ask
of the world as events: how much time has passed, what the flag says,
whether the socket is live, whether a spawn succeeds and how a wait ends.
What `stop` does meanwhile is the matter of `WineServer`; here a loop that
has ended may be started again, as `start` does after `stop`.

The first law is about the delay, the second about how many crashes there
are in a window. The full history of crashes is kept beside the state and
read by no step.
-/

namespace Muplar

namespace Supervisor

namespace Restarts

open Machine Window

/-! ## The loops -/

inductive GuardKind
  | wayland
  | wineServer
  deriving DecidableEq

/-- `RestartPolicy`; `backoff` is the delay times the factor, as an
`int`. -/
structure RestartPolicy where
  initialDelayMs : ℤ
  backoff : ℤ → ℤ
  maxDelayMs : ℤ
  maxCrashesInWindow : ℤ
  crashWindowSec : ℤ
  maxCrashes_lt : maxCrashesInWindow < 2 ^ 31

/-- Where `monitor_loop` is. -/
inductive Pc
  /-- the head of the loop -/
  | check
  /-- the crash window -/
  | gate
  /-- the look at the flag after the delay -/
  | delayed
  /-- the wait until no other compositor has the socket -/
  | foreign
  | spawn
  /-- in `poll_for_socket` -/
  | poll
  /-- the wait for a child that was terminated -/
  | terminated
  | wait
  | stopped
  /-- the crash rate was too high -/
  | gaveUp
  deriving DecidableEq

/-- What the world answers at a step; a step asks for some of it only. -/
structure Event where
  elapsed : ℕ
  stopRequested : Bool
  socketLive : Bool
  spawns : Bool
  /-- what `kqueue_wait_pid` returns, `none` for `-1` -/
  status : Option ℤ
  /-- `start` is called, if the loop has ended -/
  start : Bool

/-- A loop with the time of the last step in ticks of the clock. -/
structure Loop where
  pc : Pc
  now : ℤ
  crashTimes : List ℤ
  currentDelayMs : ℤ
  /-- ghost: every crash that was recorded -/
  history : List ℤ

def ticksPerSecond : ℤ := 1000000000

def RestartPolicy.window (policy : RestartPolicy) : ℤ :=
  policy.crashWindowSec * ticksPerSecond

/-- `apply_backoff`, and what the other loop has in its place. -/
def nextDelay (policy : RestartPolicy) (delay : ℤ) : GuardKind → ℤ
  | .wayland =>
    if delay ≤ 0 then if 0 < policy.initialDelayMs then policy.initialDelayMs else 0
    else min (policy.backoff delay) policy.maxDelayMs
  | .wineServer =>
    if delay ≤ 0 then 1000
    else min (policy.backoff delay) policy.maxDelayMs

/-- `(int) crash_times_.size() >= max_crashes_in_window`. -/
def TooMany (policy : RestartPolicy) (crashTimes : List ℤ) : Prop :=
  0 < policy.maxCrashesInWindow ∧
    policy.maxCrashesInWindow ≤ (crashTimes.length : ℤ).bmod (2 ^ 32)

instance (policy : RestartPolicy) (crashTimes : List ℤ) : Decidable (TooMany policy crashTimes) :=
  inferInstanceAs (Decidable (_ ∧ _))

/-- `crash_times_` as the gate leaves it. -/
def evict (policy : RestartPolicy) (now : ℤ) (crashTimes : List ℤ) : List ℤ :=
  if 0 < policy.maxCrashesInWindow then prune (now - policy.window) crashTimes else crashTimes

/-- Where a loop goes once the delay is over. -/
def GuardKind.afterDelay : GuardKind → Pc
  | .wayland => .foreign
  | .wineServer => .spawn

/-- Where a loop goes with a child. -/
def GuardKind.afterSpawn : GuardKind → Pc
  | .wayland => .poll
  | .wineServer => .wait

/-- `crash_times_.push_back(now)`, the new delay, and back to the head. -/
def Loop.crash (kind : GuardKind) (policy : RestartPolicy) (s : Loop) : Loop :=
  { s with
    crashTimes := s.crashTimes ++ [s.now]
    history := s.history ++ [s.now]
    currentDelayMs := nextDelay policy s.currentDelayMs kind
    pc := .check }

/-- The end of a wait. -/
def Loop.waited (kind : GuardKind) (policy : RestartPolicy) (s : Loop) : Option ℤ → Loop
  | none => { s with pc := .stopped }
  | some _ => s.crash kind policy

/-- One step of `monitor_loop` at the time `s.now`. -/
def Loop.act (kind : GuardKind) (policy : RestartPolicy) (s : Loop) (e : Event) : Loop :=
  match s.pc with
  | .check => { s with pc := if e.stopRequested then .stopped else .gate }
  | .gate =>
    let crashTimes := evict policy s.now s.crashTimes
    { s with
      crashTimes
      pc :=
        if TooMany policy crashTimes then .gaveUp
        else if 0 < s.currentDelayMs ∧ crashTimes ≠ [] then .delayed
        else kind.afterDelay }
  | .delayed => { s with pc := if e.stopRequested then .stopped else kind.afterDelay }
  | .foreign =>
    { s with
      pc := if e.stopRequested then .stopped else if e.socketLive then .foreign else .spawn }
  | .spawn => { s with pc := if e.spawns then kind.afterSpawn else .check }
  | .poll => { s with pc := if e.socketLive then .wait else .terminated }
  | .terminated => s.waited kind policy e.status
  | .wait => s.waited kind policy e.status
  | .stopped => { s with pc := if e.start then .check else .stopped }
  | .gaveUp => { s with pc := if e.start then .check else .gaveUp }

/-- Time passes. -/
def Loop.tick (s : Loop) (elapsed : ℕ) : Loop :=
  { s with now := s.now + elapsed }

def Loop.step (kind : GuardKind) (policy : RestartPolicy) (s : Loop) (e : Event) : Loop :=
  (s.tick e.elapsed).act kind policy e

/-- A new guard whose thread starts at the time `now`. -/
def Loop.started (policy : RestartPolicy) (now : ℤ) : Loop where
  pc := .check
  now := now
  crashTimes := []
  currentDelayMs := policy.initialDelayMs
  history := []

/-! ## What a step can do -/

variable {kind : GuardKind} {policy : RestartPolicy} {s : Loop} {e : Event}

/-- A crash was let in by the gate, and nothing was recorded since. -/
def Pc.admitted : Pc → Bool
  | .delayed | .foreign | .spawn | .poll | .terminated | .wait => true
  | _ => false

/-- **What a step can do.** It moves on and lets nobody in, or it is the
gate, or it records a crash. -/
theorem act_cases (kind : GuardKind) (policy : RestartPolicy) (s : Loop) (e : Event) :
    (s.pc ≠ .gate ∧ ∃ pc, s.act kind policy e = { s with pc } ∧
      (pc.admitted = true → s.pc.admitted = true) ∧ (pc = .gaveUp → s.pc = .gaveUp)) ∨
    (s.pc = .gate ∧ ∃ pc, s.act kind policy e =
        { s with crashTimes := evict policy s.now s.crashTimes, pc } ∧
      (pc = .gaveUp ↔ TooMany policy (evict policy s.now s.crashTimes))) ∨
    (s.pc.admitted = true ∧ s.act kind policy e = s.crash kind policy) := by
  have hafter : kind.afterDelay ≠ .gaveUp := by cases kind <;> exact Pc.noConfusion
  have hspawn : kind.afterSpawn ≠ .gaveUp := by cases kind <;> exact Pc.noConfusion
  cases hpc : s.pc with
  | check =>
    refine Or.inl ⟨Pc.noConfusion, _, by rw [Loop.act, hpc], ?_⟩
    cases e.stopRequested <;> simp [Pc.admitted]
  | gate =>
    refine Or.inr (Or.inl ⟨rfl, _, by rw [Loop.act, hpc], ?_⟩)
    split
    · next hmany => exact iff_of_true rfl hmany
    · next hfew =>
      refine iff_of_false ?_ hfew
      split
      · exact Pc.noConfusion
      · exact hafter
  | delayed =>
    refine Or.inl ⟨Pc.noConfusion, _, by rw [Loop.act, hpc], fun _ => rfl, ?_⟩
    cases e.stopRequested <;> simp [hafter]
  | foreign =>
    refine Or.inl ⟨Pc.noConfusion, _, by rw [Loop.act, hpc], fun _ => rfl, ?_⟩
    cases e.stopRequested <;> cases e.socketLive <;> simp
  | spawn =>
    refine Or.inl ⟨Pc.noConfusion, _, by rw [Loop.act, hpc], fun _ => rfl, ?_⟩
    cases e.spawns <;> simp [hspawn]
  | poll =>
    refine Or.inl ⟨Pc.noConfusion, _, by rw [Loop.act, hpc], fun _ => rfl, ?_⟩
    cases e.socketLive <;> simp
  | terminated | wait =>
    cases hstatus : e.status with
    | none =>
      have hstops : s.act kind policy e = { s with pc := .stopped } := by
        rw [Loop.act, hpc, hstatus]
        rfl
      exact Or.inl ⟨Pc.noConfusion, .stopped, hstops, fun _ => rfl, Pc.noConfusion⟩
    | some status =>
      exact Or.inr (Or.inr ⟨rfl, by rw [Loop.act, hpc, hstatus]; rfl⟩)
  | stopped =>
    refine Or.inl ⟨Pc.noConfusion, _, by rw [Loop.act, hpc], ?_⟩
    cases e.start <;> simp [Pc.admitted]
  | gaveUp =>
    refine Or.inl ⟨Pc.noConfusion, _, by rw [Loop.act, hpc], ?_, fun _ => rfl⟩
    cases e.start <;> simp [Pc.admitted]

/-! ## The delay -/

/-- The delay after `n` crashes. -/
def delayAfter (kind : GuardKind) (policy : RestartPolicy) (n : ℕ) : ℤ :=
  (fun delay => nextDelay policy delay kind)^[n] policy.initialDelayMs

theorem delayAfter_succ (kind : GuardKind) (policy : RestartPolicy) (n : ℕ) :
    delayAfter kind policy (n + 1) = nextDelay policy (delayAfter kind policy n) kind :=
  Function.iterate_succ_apply' _ _ _

/-- The delay is the one of the crashes there were. -/
def Loop.Delayed (kind : GuardKind) (policy : RestartPolicy) (s : Loop) : Prop :=
  s.currentDelayMs = delayAfter kind policy s.history.length

theorem step_delayed (h : s.Delayed kind policy) (e : Event) :
    (s.step kind policy e).Delayed kind policy := by
  have htick : (s.tick e.elapsed).Delayed kind policy := h
  rw [Loop.step]
  rcases act_cases kind policy (s.tick e.elapsed) e with
    ⟨-, pc, heq, -⟩ | ⟨-, pc, heq, -⟩ | ⟨-, heq⟩
  · rw [heq]
    exact htick
  · rw [heq]
    exact htick
  · rw [heq, Loop.Delayed, Loop.crash, List.length_append, List.length_singleton, delayAfter_succ,
      ← htick]

/-- A policy with a whole factor, whose products fit into an `int`: the
product of the `double`s is exact. -/
structure WholePolicy extends RestartPolicy where
  factor : ℤ
  two_le_factor : 2 ≤ factor
  initial_nonneg : 0 ≤ initialDelayMs
  initial_le : initialDelayMs ≤ maxDelayMs
  max_pos : 0 < maxDelayMs
  product_lt : factor * maxDelayMs < 2 ^ 31
  backoff_eq : ∀ delay, 0 ≤ delay → delay * factor < 2 ^ 31 → backoff delay = delay * factor

/-- **Bounded and effective.** The delay never decreases, stays below the
maximum and gets there, and the two guards agree on it. -/
structure Effective (policy : RestartPolicy) : Prop where
  monotone : ∀ kind m n, m ≤ n → delayAfter kind policy m ≤ delayAfter kind policy n
  bounded : ∀ kind n, delayAfter kind policy n ≤ policy.maxDelayMs
  reaches : ∀ kind, ∃ m, ∀ n, m ≤ n → delayAfter kind policy n = policy.maxDelayMs
  agree : ∀ n, delayAfter .wayland policy n = delayAfter .wineServer policy n

/-- Without an initial delay the compositor's guard never waits. -/
theorem wayland_never_waits (h : policy.initialDelayMs = 0) (n : ℕ) :
    delayAfter .wayland policy n = 0 := by
  induction n with
  | zero => exact h
  | succ n ih => rw [delayAfter_succ, ih, nextDelay, if_pos le_rfl, h, if_neg (lt_irrefl 0)]

section Whole

variable {policy : WholePolicy} {delay : ℤ} {n : ℕ}

/-- A delay that is there is multiplied and cut off, in both guards. -/
theorem nextDelay_of_pos (hpos : 0 < delay) (hle : delay ≤ policy.maxDelayMs) (kind : GuardKind) :
    nextDelay policy.toRestartPolicy delay kind =
      min (delay * policy.factor) policy.maxDelayMs := by
  have hfactor := policy.two_le_factor
  have hfits : delay * policy.factor < 2 ^ 31 := by
    calc delay * policy.factor = policy.factor * delay := mul_comm _ _
      _ ≤ policy.factor * policy.maxDelayMs := Int.mul_le_mul_of_nonneg_left hle (by omega)
      _ < 2 ^ 31 := policy.product_lt
  have hbackoff := policy.backoff_eq delay hpos.le hfits
  cases kind <;> rw [nextDelay, if_neg (not_le.mpr hpos), hbackoff]

/-- The factor at least doubles. -/
theorem two_mul_le_product (hpos : 0 ≤ delay) : 2 * delay ≤ delay * policy.factor := by
  rw [mul_comm delay]
  exact Int.mul_le_mul_of_nonneg_right policy.two_le_factor hpos

/-- **In closed form up to the maximum.** With an initial delay, the delay
is in between, and doubles at least until the maximum is reached. -/
theorem delayAfter_spec (h : 0 < policy.initialDelayMs) (kind : GuardKind) (n : ℕ) :
    0 < delayAfter kind policy.toRestartPolicy n ∧
      delayAfter kind policy.toRestartPolicy n ≤ policy.maxDelayMs ∧
      min (n + 1 : ℤ) policy.maxDelayMs ≤ delayAfter kind policy.toRestartPolicy n := by
  induction n with
  | zero =>
    have hle := policy.initial_le
    have hzero : delayAfter kind policy.toRestartPolicy 0 = policy.initialDelayMs := rfl
    omega
  | succ n ih =>
    obtain ⟨hpos, hle, hgrown⟩ := ih
    have hproduct := @two_mul_le_product policy _ hpos.le
    have hmax := policy.max_pos
    rw [delayAfter_succ, nextDelay_of_pos hpos hle]
    push_cast
    omega

theorem delayAfter_le_succ (h : 0 < policy.initialDelayMs) (kind : GuardKind) (n : ℕ) :
    delayAfter kind policy.toRestartPolicy n ≤ delayAfter kind policy.toRestartPolicy (n + 1) := by
  obtain ⟨hpos, hle, -⟩ := delayAfter_spec h kind n
  have hproduct := @two_mul_le_product policy _ hpos.le
  rw [delayAfter_succ, nextDelay_of_pos hpos hle]
  omega

theorem delayAfter_agree (h : 0 < policy.initialDelayMs) (n : ℕ) :
    delayAfter .wayland policy.toRestartPolicy n =
      delayAfter .wineServer policy.toRestartPolicy n := by
  induction n with
  | zero => rfl
  | succ n ih =>
    obtain ⟨hpos, hle, -⟩ := delayAfter_spec h .wineServer n
    rw [delayAfter_succ, delayAfter_succ, ih, nextDelay_of_pos hpos hle, nextDelay_of_pos hpos hle]

/-- Once there have been as many crashes as the maximum has milliseconds,
the delay is the maximum. -/
theorem delayAfter_eq_max (h : 0 < policy.initialDelayMs) (kind : GuardKind)
    (hn : policy.maxDelayMs ≤ n) :
    delayAfter kind policy.toRestartPolicy n = policy.maxDelayMs := by
  obtain ⟨-, hle, hgrown⟩ := delayAfter_spec h kind n
  omega

end Whole

/-- **The backoff works exactly with an initial delay.** -/
theorem effective_iff (policy : WholePolicy) :
    Effective policy.toRestartPolicy ↔ 0 < policy.initialDelayMs := by
  constructor
  · intro h
    by_contra hnone
    have hzero : policy.initialDelayMs = 0 := by
      have := policy.initial_nonneg
      omega
    obtain ⟨m, hreaches⟩ := h.reaches .wayland
    have hmax := hreaches m le_rfl
    rw [wayland_never_waits hzero] at hmax
    have := policy.max_pos
    omega
  · intro h
    exact {
      monotone := fun kind _ _ hle => monotone_nat_of_le_succ (delayAfter_le_succ h kind) hle
      bounded := fun kind n => (delayAfter_spec h kind n).2.1
      reaches := fun kind => ⟨policy.maxDelayMs.toNat, fun n hn =>
        delayAfter_eq_max h kind (by omega)⟩
      agree := delayAfter_agree h }

/-- The policy as it is by default. -/
def defaultPolicy : WholePolicy where
  initialDelayMs := 0
  backoff delay := if delay * 2 < 2 ^ 31 then delay * 2 else -2 ^ 31
  maxDelayMs := 8000
  maxCrashesInWindow := 5
  crashWindowSec := 120
  maxCrashes_lt := by decide
  factor := 2
  two_le_factor := le_rfl
  initial_nonneg := le_rfl
  initial_le := by decide
  max_pos := by decide
  product_lt := by decide
  backoff_eq delay _ h := if_pos h

/-- **The compositor is restarted without a pause.** By default there is no
initial delay, and doubling nothing gives nothing. -/
theorem default_never_effective : ¬∀ policy : WholePolicy, Effective policy.toRestartPolicy := by
  intro h
  obtain ⟨m, hreaches⟩ := (h defaultPolicy).reaches .wayland
  have hmax := hreaches m le_rfl
  rw [wayland_never_waits rfl] at hmax
  exact absurd hmax (by decide)

/-! ## The limit -/

/-- **The invariant of the counting.** From the last cutoff on nothing was
forgotten; no window is too full; and past the gate there is room for one
more. -/
structure Loop.Counted (policy : RestartPolicy) (s : Loop) : Prop where
  agree : AgreeFrom (s.now - policy.window) s.crashTimes s.history
  past : ∀ t ∈ s.history, t ≤ s.now
  bounded : ∀ a, within a policy.window s.history ≤ policy.maxCrashesInWindow.toNat
  room : s.pc.admitted = true →
    (prune (s.now - policy.window) s.history).length < policy.maxCrashesInWindow.toNat
  full : s.pc = .gaveUp →
    ∃ a, within a policy.window s.history = policy.maxCrashesInWindow.toNat

theorem started_counted (policy : RestartPolicy) (now : ℤ) :
    (Loop.started policy now).Counted policy where
  agree := AgreeFrom.refl
  past _ ht := absurd ht List.not_mem_nil
  bounded _ := Nat.zero_le _
  room h := by cases h
  full h := by cases h

/-- Time that passes takes nothing back. -/
theorem Loop.Counted.tick (h : s.Counted policy) (elapsed : ℕ) :
    (s.tick elapsed).Counted policy := by
  have hcutoff : s.now - policy.window ≤ s.now + elapsed - policy.window := by omega
  exact {
    agree := h.agree.mono hcutoff
    past := fun t ht => (h.past t ht).trans (Int.le_add_of_nonneg_right (Int.natCast_nonneg _))
    bounded := h.bounded
    room := fun hin => lt_of_le_of_lt (length_prune_le hcutoff) (h.room hin)
    full := h.full }

/-- What the gate counts is what there was in the window that ends now. -/
theorem Loop.Counted.length_evict (h : s.Counted policy) (hlimit : 0 < policy.maxCrashesInWindow) :
    (evict policy s.now s.crashTimes).length =
      within (s.now - policy.window) policy.window s.history := by
  rw [evict, if_pos hlimit, h.agree _ le_rfl, within_eq_length_prune h.past]

/-- **The gate decides as if nothing had been forgotten.** -/
theorem Loop.Counted.tooMany_iff (h : s.Counted policy) (hlimit : 0 < policy.maxCrashesInWindow) :
    TooMany policy (evict policy s.now s.crashTimes) ↔
      policy.maxCrashesInWindow.toNat ≤ (prune (s.now - policy.window) s.history).length := by
  have hlt := policy.maxCrashes_lt
  have hle := h.bounded (s.now - policy.window)
  -- what is counted is at most the limit, and so an `int`
  have hcast : ((evict policy s.now s.crashTimes).length : ℤ).bmod (2 ^ 32) =
      (evict policy s.now s.crashTimes).length := by
    rw [h.length_evict hlimit]
    exact Int.bmod_eq_of_le (by omega) (by omega)
  rw [TooMany, hcast, h.length_evict hlimit, within_eq_length_prune h.past]
  omega

theorem act_counted (h : s.Counted policy) (hlimit : 0 < policy.maxCrashesInWindow) (e : Event) :
    (s.act kind policy e).Counted policy := by
  rcases act_cases kind policy s e with
    ⟨-, pc, heq, hin, hup⟩ | ⟨-, pc, heq, hup⟩ | ⟨hin, heq⟩
  · rw [heq]
    exact {
      agree := h.agree
      past := h.past
      bounded := h.bounded
      room := fun hpc => h.room (hin hpc)
      full := fun hpc => h.full (hup hpc) }
  · rw [heq]
    have hmany := h.tooMany_iff hlimit
    have hfull := h.bounded (s.now - policy.window)
    rw [within_eq_length_prune h.past] at hfull
    refine {
      agree := ?_
      past := h.past
      bounded := h.bounded
      room := fun hpc => ?_
      full := fun hpc => ⟨s.now - policy.window, ?_⟩ }
    · rw [evict, if_pos hlimit]
      exact h.agree.prune
    · refine not_le.mp fun hle => ?_
      have hgone := hup.mpr (hmany.mpr hle)
      rw [hgone] at hpc
      cases hpc
    · rw [within_eq_length_prune h.past]
      exact le_antisymm hfull (hmany.mp (hup.mp hpc))
  · rw [heq]
    have hroom := h.room hin
    exact {
      agree := h.agree.concat s.now
      past := by
        intro t ht
        rcases List.mem_append.mp ht with hold | hnew
        · exact h.past t hold
        · exact (List.mem_singleton.mp hnew).le
      bounded := fun a => within_concat_le hroom le_rfl h.bounded
      room := fun hpc => by cases hpc
      full := fun hpc => by cases hpc }

theorem step_counted (hlimit : 0 < policy.maxCrashesInWindow) (h : s.Counted policy) (e : Event) :
    (s.step kind policy e).Counted policy :=
  act_counted (h.tick e.elapsed) hlimit e

/-- No window has more crashes than the limit, and a loop that gave up has
a window with as many. -/
def Loop.Limited (policy : RestartPolicy) (s : Loop) : Prop :=
  (∀ a, within a policy.window s.history ≤ policy.maxCrashesInWindow.toNat) ∧
    (s.pc = .gaveUp → ∃ a, within a policy.window s.history = policy.maxCrashesInWindow.toNat)

/-- The loop gives up at this step if and only if the full history has as
many crashes as the limit since the cutoff. -/
def Unpruned (kind : GuardKind) (policy : RestartPolicy) (s : Loop) (e : Event) : Prop :=
  s.pc = .gate → ((s.step kind policy e).pc = .gaveUp ↔
    policy.maxCrashesInWindow ≤
      (prune (s.now + e.elapsed - policy.window) s.history).length)

theorem unpruned (h : s.Counted policy) (hlimit : 0 < policy.maxCrashesInWindow) (e : Event) :
    Unpruned kind policy s e := by
  intro hpc
  have htick := h.tick e.elapsed
  rw [Loop.step]
  rcases act_cases kind policy (s.tick e.elapsed) e with
    ⟨hgate, -⟩ | ⟨-, pc, heq, hup⟩ | ⟨hin, -⟩
  · exact absurd hpc hgate
  · rw [heq]
    exact hup.trans ((htick.tooMany_iff hlimit).trans (by rw [Int.toNat_le]; rfl))
  · rw [show (s.tick e.elapsed).pc = .gate from hpc] at hin
    cases hin

/-- **The limit of crashes holds of every run** of either loop: no window of
the full history is above it, the loop gives up only with a window that is
full, and forgetting old crashes changes no decision. -/
theorem crashes_limited (kind : GuardKind) (policy : RestartPolicy)
    (hlimit : 0 < policy.maxCrashesInWindow) (now : ℤ) (es : List Event) :
    Throughout (Loop.step kind policy) (Loop.Limited policy) (.started policy now) es ∧
      Meets (Loop.step kind policy) (Unpruned kind policy) (.started policy now) es := by
  have hstart := started_counted policy now
  have hkept : ∀ s e, Loop.Counted policy s → (s.step kind policy e).Counted policy :=
    fun _ e h => step_counted hlimit h e
  constructor
  · exact (throughout_of_kept hkept hstart es).mono fun _ h => ⟨h.bounded, h.full⟩
  · exact meets_of_kept hkept (fun _ e h => unpruned h hlimit e) hstart es

/-- A child that is spawned and ends at once. -/
def endsAtOnce : Event where
  elapsed := 1
  stopRequested := false
  socketLive := false
  spawns := true
  status := some 0
  start := false

/-- The fifth crash in a row is the last. -/
theorem fifth_crash_gives_up :
    (run (Loop.step .wineServer defaultPolicy.toRestartPolicy)
        (.started defaultPolicy.toRestartPolicy 0) (List.replicate 26 endsAtOnce)).pc = .gaveUp ∧
      Throughout (Loop.step .wineServer defaultPolicy.toRestartPolicy)
        (Loop.Limited defaultPolicy.toRestartPolicy)
        (.started defaultPolicy.toRestartPolicy 0) (List.replicate 26 endsAtOnce) ∧
      Meets (Loop.step .wineServer defaultPolicy.toRestartPolicy)
        (Unpruned .wineServer defaultPolicy.toRestartPolicy)
        (.started defaultPolicy.toRestartPolicy 0) (List.replicate 26 endsAtOnce) :=
  ⟨by decide +kernel,
    crashes_limited .wineServer defaultPolicy.toRestartPolicy (by decide) 0
      (List.replicate 26 endsAtOnce)⟩

end Restarts

end Supervisor

end Muplar
