import Mathlib.Logic.Function.Basic
import Muplar.Common.Run
import Muplar.Common.Text
/-!
# The supervisor — start and stop

`start` and `stop` of `SupervisorService` are called from any thread. A
lock orders what they do to the flag and to the handle of the poll thread;
the guards are started and stopped outside it. So a `start` has two parts
that hold the lock, with the guards in between, and it is the flag that
tells the second part whether to go on. If a `stop` and another `start`
come in between, the flag is set again, and both go on: the second to
publish its poll thread assigns over a thread that is joinable, which ends
the process.
-/

namespace Muplar

namespace Supervisor

/-! ## Threads -/

/-- Where a thread is that calls the service. -/
inductive Pc
  /-- `start`, at `try_lock` -/
  | tryLock
  /-- `start`, joining a poll thread under the lock -/
  | joinOld
  /-- `start`, at the look at `running_` -/
  | precheck
  | startWayland
  | syncWine
  /-- `start`, at its second lock -/
  | publish
  /-- `stop`, at its lock -/
  | lock
  /-- `stop`, joining the poll thread under the lock -/
  | joinPoll
  /-- `stop_guards`, of either -/
  | stopWine
  | stopWayland
  /-- in no call -/
  | returned
  deriving DecidableEq

/-- Where a `poll_loop` is. -/
inductive PollPc
  | head
  | asleep
  | sync
  | finished
  deriving DecidableEq

/-- A prefix, as the guards see it. -/
structure Listed where
  name : Bytes
  wine : Bool

/-- The service and the threads that use it. `poll_thread_` holds the loop
it was assigned until that is joined. -/
structure Service where
  running : Bool
  lock : Option ℕ
  pollThread : Option ℕ
  loops : ℕ
  polls : ℕ → PollPc
  wayland : Bool
  wineGuards : List Bytes
  calls : ℕ → Pc
  terminated : Bool

/-- A thread calls `start` or `stop`, takes a step in its call, or a poll
loop does. The list is what `list_prefixes` gives. -/
inductive Act
  | start (i : ℕ)
  | stop (i : ℕ)
  | call (i : ℕ) (listed : List Listed)
  | poll (j : ℕ) (listed : List Listed)

/-- `sync_wine_guards`. -/
def syncWineGuards (listed : List Listed) (guards : List Bytes) : List Bytes :=
  let all := listed.foldl
    (fun guards p => if p.wine ∧ p.name ∉ guards then guards ++ [p.name] else guards) guards
  all.filter fun name => listed.any (·.name = name)

namespace Service

/-- A thread goes on. -/
def goto (s : Service) (i : ℕ) (pc : Pc) : Service :=
  { s with calls := Function.update s.calls i pc }

/-- The poll thread has ended, or there is none. -/
def pollEnded (s : Service) : Bool :=
  match s.pollThread with
  | none => true
  | some j => s.polls j = .finished

/-- One step of a call; a lock that is taken and a join that is not over
wait. -/
def callStep (s : Service) (i : ℕ) (listed : List Listed) : Service :=
  match s.calls i with
  | .tryLock =>
    if s.lock ≠ none ∨ s.running then s.goto i .returned
    else if s.pollThread = none then { s with running := true }.goto i .precheck
    else { s with running := true, lock := some i }.goto i .joinOld
  | .joinOld =>
    if s.pollEnded then { s with pollThread := none, lock := none }.goto i .precheck else s
  | .precheck => s.goto i (if s.running then .startWayland else .returned)
  | .startWayland => { s with wayland := true }.goto i .syncWine
  | .syncWine => { s with wineGuards := syncWineGuards listed s.wineGuards }.goto i .publish
  | .publish =>
    if s.lock ≠ none then s
    else if !s.running then s.goto i .stopWine
    else if s.pollThread ≠ none then { s with terminated := true }
    else
      { s with
        pollThread := some s.loops
        polls := Function.update s.polls s.loops .head
        loops := s.loops + 1 }.goto i .returned
  | .lock =>
    if s.lock ≠ none then s
    else if !s.running then s.goto i .returned
    else if s.pollThread = none then { s with running := false }.goto i .stopWine
    else { s with running := false, lock := some i }.goto i .joinPoll
  | .joinPoll =>
    if s.pollEnded then { s with pollThread := none, lock := none }.goto i .stopWine else s
  | .stopWine => { s with wineGuards := [] }.goto i .stopWayland
  | .stopWayland => { s with wayland := false }.goto i .returned
  | .returned => s

/-- One step of a poll loop. -/
def pollStep (s : Service) (j : ℕ) (listed : List Listed) : Service :=
  match s.polls j with
  | .head => { s with polls := Function.update s.polls j (if s.running then .asleep else .finished) }
  | .asleep => { s with polls := Function.update s.polls j (if s.running then .sync else .finished) }
  | .sync =>
    { s with
      polls := Function.update s.polls j .head
      wineGuards := syncWineGuards listed s.wineGuards }
  | .finished => s

def step (s : Service) (a : Act) : Service :=
  if s.terminated then s
  else match a with
    | .start i => if s.calls i = .returned then s.goto i .tryLock else s
    | .stop i => if s.calls i = .returned then s.goto i .lock else s
    | .call i listed => s.callStep i listed
    | .poll j listed => s.pollStep j listed

/-- A service that was just made. -/
def fresh : Service where
  running := false
  lock := none
  pollThread := none
  loops := 0
  polls _ := .finished
  wayland := false
  wineGuards := []
  calls _ := .returned
  terminated := false

end Service

/-! ## What should not be -/

/-- **Safe.** The process lives, so that no joinable handle was assigned;
no two poll loops run; and a service at rest that is not running has no
guard running. -/
structure Service.Safe (s : Service) : Prop where
  alive : s.terminated = false
  onePoll : ∀ j k, s.polls j ≠ .finished → s.polls k ≠ .finished → j = k
  noGuard : (∀ i, s.calls i = .returned) → s.running = false →
    s.wayland = false ∧ s.wineGuards = []

/-- The call is a `start` between its two parts. -/
def Pc.starting : Pc → Bool
  | .joinOld | .precheck | .startWayland | .syncWine | .publish => true
  | _ => false

/-- **One start at a time.** A `start` that finds the service stopped finds
no other between its two parts. -/
def OneStart (s : Service) : Act → Prop
  | .call i _ => s.calls i = .tryLock → s.lock = none → s.running = false →
      ∀ k, (s.calls k).starting = false
  | _ => True

/-! ## The invariant -/

/-- The call holds the lock. -/
def Pc.locked : Pc → Bool
  | .joinOld | .joinPoll => true
  | _ => false

/-- The call will see to it that no Windows service is left: it stops
them, or it is the `start` that started them. -/
def Pc.minding : Pc → Bool
  | .publish | .joinPoll | .stopWine => true
  | _ => false

/-- The same of the compositor. -/
def Pc.mindingWayland : Pc → Bool
  | .syncWine | .stopWayland => true
  | pc => pc.minding

/-- Some call is where `P` says. -/
def Service.Someone (s : Service) (P : Pc → Bool) : Prop :=
  ∃ k, P (s.calls k) = true

/-- **The invariant of the service.** -/
structure Service.Inv (s : Service) : Prop where
  alive : s.terminated = false
  holder : ∀ i, (s.calls i).locked = true → s.lock = some i
  owned : ∀ j, s.polls j ≠ .finished → s.pollThread = some j
  joinable : s.pollThread ≠ none → s.running = true ∨ s.Someone (· = .joinPoll)
  wine : s.wineGuards ≠ [] → s.running = true ∨ s.Someone Pc.minding
  wayland : s.wayland = true → s.running = true ∨ s.Someone Pc.mindingWayland
  alone : ∀ i k, (s.calls i).starting = true → (s.calls k).starting = true → i = k
  unpublished : ∀ i, (s.calls i).starting = true → s.pollThread = none

variable {s : Service}

theorem Service.Inv.safe (h : s.Inv) : s.Safe where
  alive := h.alive
  onePoll j k hj hk := Option.some.inj ((h.owned j hj).symm.trans (h.owned k hk))
  noGuard hreturned hrunning := by
    have hnobody : ∀ P : Pc → Bool, P .returned = false → ¬(s.running = true ∨ s.Someone P) := by
      rintro P hP (hrun | ⟨k, hk⟩)
      · rw [hrunning] at hrun
        cases hrun
      · rw [hreturned k, hP] at hk
        cases hk
    constructor
    · rw [← Bool.not_eq_true]
      exact fun hway => hnobody _ rfl (h.wayland hway)
    · by_contra hwine
      exact hnobody _ rfl (h.wine hwine)

theorem fresh_inv : Service.fresh.Inv where
  alive := rfl
  holder _ h := absurd h Bool.false_ne_true
  owned _ h := absurd rfl h
  joinable h := absurd rfl h
  wine h := absurd rfl h
  wayland h := absurd h Bool.false_ne_true
  alone _ _ h := absurd h Bool.false_ne_true
  unpublished _ h := absurd h Bool.false_ne_true

/-! ## Where the calls are -/

theorem someone_update {P : Pc → Bool} {calls : ℕ → Pc} {i : ℕ} {pc : Pc}
    (h : ∃ k, P (calls k) = true) (hmove : P (calls i) = true → P pc = true) :
    ∃ k, P (Function.update calls i pc k) = true := by
  obtain ⟨k, hk⟩ := h
  by_cases hki : k = i
  · subst hki
    exact ⟨k, by rw [Function.update_self]; exact hmove hk⟩
  · exact ⟨k, by rw [Function.update_of_ne hki]; exact hk⟩

theorem of_update {P : Pc → Bool} {calls : ℕ → Pc} {i k : ℕ} {pc : Pc}
    (h : P (Function.update calls i pc k) = true) :
    k = i ∧ P pc = true ∨ k ≠ i ∧ P (calls k) = true := by
  by_cases hki : k = i
  · rw [hki, Function.update_self] at h
    exact Or.inl ⟨hki, h⟩
  · rw [Function.update_of_ne hki] at h
    exact Or.inr ⟨hki, h⟩

/-- Of a call that does not start: it was at a place where it did, or it
is another. -/
theorem starting_of_update {calls : ℕ → Pc} {i k : ℕ} {pc : Pc}
    (hpc : pc.starting = true → (calls i).starting = true)
    (h : (Function.update calls i pc k).starting = true) : (calls k).starting = true := by
  rcases of_update h with ⟨rfl, hstart⟩ | ⟨-, hstart⟩
  · exact hpc hstart
  · exact hstart

/-- A call that goes on, and gives up nothing that it has to mind. -/
theorem Service.Inv.goto (h : s.Inv) {i : ℕ} {pc : Pc} (hlocked : pc.locked = false)
    (hjoin : s.calls i ≠ .joinPoll)
    (hwine : (s.calls i).minding = true → pc.minding = true ∨ s.wineGuards = [] ∨ s.running = true)
    (hway : (s.calls i).mindingWayland = true →
      pc.mindingWayland = true ∨ s.wayland = false ∨ s.running = true)
    (hstart : pc.starting = true → (s.calls i).starting = true) : (s.goto i pc).Inv where
  alive := h.alive
  holder k hk := by
    rcases of_update hk with ⟨-, hpc⟩ | ⟨-, hk⟩
    · rw [hlocked] at hpc
      cases hpc
    · exact h.holder k hk
  owned := h.owned
  joinable hp := (h.joinable hp).imp_right fun hsome =>
    someone_update (P := (· = .joinPoll)) hsome fun hpc => absurd (of_decide_eq_true hpc) hjoin
  wine hne := by
    rcases h.wine hne with hrun | hsome
    · exact Or.inl hrun
    by_cases hmind : (s.calls i).minding = true
    · rcases hwine hmind with hpc | hnone | hrun
      · exact Or.inr (someone_update hsome fun _ => hpc)
      · exact absurd hnone hne
      · exact Or.inl hrun
    · exact Or.inr (someone_update hsome fun hmind' => absurd hmind' hmind)
  wayland hon := by
    rcases h.wayland hon with hrun | hsome
    · exact Or.inl hrun
    by_cases hmind : (s.calls i).mindingWayland = true
    · rcases hway hmind with hpc | hoff | hrun
      · exact Or.inr (someone_update hsome fun _ => hpc)
      · rw [show s.wayland = true from hon] at hoff
        cases hoff
      · exact Or.inl hrun
    · exact Or.inr (someone_update hsome fun hmind' => absurd hmind' hmind)
  alone k l hk hl := h.alone k l (starting_of_update hstart hk) (starting_of_update hstart hl)
  unpublished k hk := h.unpublished k (starting_of_update hstart hk)

/-! ## The guards -/

theorem Service.Inv.startWayland (h : s.Inv) (hminded : s.Someone Pc.mindingWayland) :
    Service.Inv { s with wayland := true } :=
  ⟨h.alive, h.holder, h.owned, h.joinable, h.wine, fun _ => Or.inr hminded, h.alone, h.unpublished⟩

theorem Service.Inv.stopWayland (h : s.Inv) : Service.Inv { s with wayland := false } :=
  ⟨h.alive, h.holder, h.owned, h.joinable, h.wine, fun hon => absurd hon Bool.false_ne_true, h.alone,
    h.unpublished⟩

theorem Service.Inv.setWine (h : s.Inv) {guards : List Bytes}
    (hminded : guards ≠ [] → s.running = true ∨ s.Someone Pc.minding) :
    Service.Inv { s with wineGuards := guards } :=
  ⟨h.alive, h.holder, h.owned, h.joinable, hminded, h.wayland, h.alone, h.unpublished⟩

theorem someone_goto {i : ℕ} {pc : Pc} {P : Pc → Bool} (h : P pc = true) :
    (s.goto i pc).Someone P := by
  have hself : (s.goto i pc).calls i = pc := by simp [Service.goto]
  exact ⟨i, by rw [hself]; exact h⟩

/-! ## The lock -/

/-- `start` sets the flag: there is no other, and no poll thread. -/
theorem Service.Inv.enter (h : s.Inv) {i : ℕ} (hlock : s.lock = none)
    (hrunning : s.running = false) (hone : ∀ k, (s.calls k).starting = false) :
    (Service.goto { s with running := true } i .precheck).Inv ∧ s.pollThread = none := by
  have hnone : s.pollThread = none := by
    by_contra hp
    rcases h.joinable hp with hrun | ⟨k, hk⟩
    · rw [hrunning] at hrun
      cases hrun
    · have hheld := h.holder k (by rw [of_decide_eq_true hk]; rfl)
      rw [hlock] at hheld
      cases hheld
  have honly : ∀ k, (Function.update s.calls i .precheck k).starting = true → k = i := by
    intro k hk
    rcases of_update hk with ⟨heq, -⟩ | ⟨-, hk⟩
    · exact heq
    · rw [hone k] at hk
      cases hk
  refine ⟨⟨h.alive, fun k hk => ?_, h.owned, fun _ => Or.inl rfl, fun _ => Or.inl rfl,
    fun _ => Or.inl rfl, fun k l hk hl => (honly k hk).trans (honly l hl).symm, fun _ _ => hnone⟩, hnone⟩
  rcases of_update hk with ⟨-, hpc⟩ | ⟨-, hk⟩
  · cases hpc
  · exact h.holder k hk

/-- `start` publishes the poll thread: nobody else is about to. -/
theorem Service.Inv.publish (h : s.Inv) {i : ℕ} (hpc : s.calls i = .publish)
    (hrunning : s.running = true) :
    s.pollThread = none ∧ (Service.goto { s with
      pollThread := some s.loops
      polls := Function.update s.polls s.loops .head
      loops := s.loops + 1 } i .returned).Inv := by
  have hstarting : (s.calls i).starting = true := by rw [hpc]; rfl
  have hnone := h.unpublished i hstarting
  have hnobody : ∀ k, (Function.update s.calls i .returned k).starting ≠ true := by
    intro k hk
    rcases of_update hk with ⟨-, hpc⟩ | ⟨hne, hk⟩
    · cases hpc
    · exact hne (h.alone k i hk hstarting)
  refine ⟨hnone, ⟨h.alive, fun k hk => ?_, fun j hj => ?_, fun _ => Or.inl hrunning,
    fun _ => Or.inl hrunning, fun _ => Or.inl hrunning, fun k _ hk => absurd hk (hnobody k),
    fun k hk => absurd hk (hnobody k)⟩⟩
  · rcases of_update hk with ⟨-, hpc⟩ | ⟨-, hk⟩
    · cases hpc
    · exact h.holder k hk
  · by_cases heq : j = s.loops
    · rw [heq]
      rfl
    · have howned := h.owned j (by rwa [← Function.update_of_ne heq PollPc.head s.polls])
      rw [hnone] at howned
      cases howned

/-- `stop` clears the flag, and takes over what is there. -/
theorem Service.Inv.clear (h : s.Inv) {i : ℕ} {lock : Option ℕ} {pc : Pc} (hpc : s.calls i = .lock)
    (hlock : s.lock = none) (hnext : pc = .stopWine ∧ s.pollThread = none ∨
      pc = .joinPoll ∧ lock = some i) :
    (Service.goto { s with running := false, lock } i pc).Inv := by
  have hminding : pc.minding = true := by
    rcases hnext with ⟨rfl, -⟩ | ⟨rfl, -⟩ <;> rfl
  have hway : pc.mindingWayland = true := by
    rcases hnext with ⟨rfl, -⟩ | ⟨rfl, -⟩ <;> rfl
  have hstart : pc.starting = true → (s.calls i).starting = true := by
    intro hp
    rcases hnext with ⟨rfl, -⟩ | ⟨rfl, -⟩ <;> cases hp
  refine ⟨h.alive, fun k hk => ?_, h.owned, fun hp => ?_, fun _ => Or.inr (someone_goto hminding),
    fun _ => Or.inr (someone_goto hway), fun k l hk hl => h.alone k l (starting_of_update hstart hk)
      (starting_of_update hstart hl), fun k hk => h.unpublished k (starting_of_update hstart hk)⟩
  · rcases of_update hk with ⟨rfl, hp⟩ | ⟨-, hk⟩
    · rcases hnext with ⟨rfl, -⟩ | ⟨-, rfl⟩
      · cases hp
      · rfl
    · have hheld := h.holder k hk
      rw [hlock] at hheld
      cases hheld
  · rcases hnext with ⟨-, hnone⟩ | ⟨rfl, -⟩
    · exact absurd hnone hp
    · exact Or.inr (someone_goto (P := (· = .joinPoll)) rfl)

/-- The poll thread is joined, and the lock given back. -/
theorem Service.Inv.joined (h : s.Inv) {i : ℕ} (pc : Pc) (hlocked : (s.calls i).locked = true)
    (hended : s.pollEnded = true) (hpc : pc.locked = false)
    (hminding : (s.calls i).minding = true → pc.minding = true)
    (hway : (s.calls i).mindingWayland = true → pc.mindingWayland = true)
    (hstart : pc.starting = true → (s.calls i).starting = true) :
    (Service.goto { s with pollThread := none, lock := none } i pc).Inv := by
  refine ⟨h.alive, fun k hk => ?_, fun j hj => ?_, fun hp => absurd rfl hp,
    fun hne => (h.wine hne).imp_right fun hsome => someone_update hsome hminding,
    fun hon => (h.wayland hon).imp_right fun hsome => someone_update hsome hway,
    fun k l hk hl => h.alone k l (starting_of_update hstart hk) (starting_of_update hstart hl),
    fun _ _ => rfl⟩
  · rcases of_update hk with ⟨-, hp⟩ | ⟨hne, hk⟩
    · rw [hpc] at hp
      cases hp
    · have hsame := (h.holder k hk).symm.trans (h.holder i hlocked)
      exact absurd (Option.some.inj hsame) hne
  · rw [Service.pollEnded, h.owned j hj] at hended
    exact absurd (of_decide_eq_true hended) hj

/-! ## Steps -/

theorem call_inv (h : s.Inv) {i : ℕ} {listed : List Listed} (hone : OneStart s (.call i listed)) :
    (s.callStep i listed).Inv := by
  unfold Service.callStep
  split
  · next hpc =>
    split
    · exact h.goto rfl (by simp [hpc]) (by simp [hpc, Pc.minding])
        (by simp [hpc, Pc.mindingWayland, Pc.minding]) (fun hp => by cases hp)
    next hfree =>
    simp only [not_or, not_not, Bool.not_eq_true] at hfree
    obtain ⟨henter, hnone⟩ := h.enter hfree.1 hfree.2 (hone hpc hfree.1 hfree.2)
    rw [if_pos hnone]
    exact henter
  · next hpc =>
    split
    · next hended =>
      exact h.joined .precheck (by rw [hpc]; rfl) hended rfl (by simp [hpc, Pc.minding])
        (by simp [hpc, Pc.mindingWayland, Pc.minding]) (fun _ => by rw [hpc]; rfl)
    · exact h
  · next hpc =>
    refine h.goto ?_ (by simp [hpc]) (by simp [hpc, Pc.minding])
      (by simp [hpc, Pc.mindingWayland, Pc.minding]) (fun _ => by rw [hpc]; rfl)
    split <;> rfl
  · next hpc =>
    have hmoved : (s.goto i .syncWine).Inv := h.goto rfl (by simp [hpc]) (by simp [hpc, Pc.minding])
      (by simp [hpc, Pc.mindingWayland, Pc.minding]) (fun _ => by rw [hpc]; rfl)
    exact hmoved.startWayland (someone_goto rfl)
  · next hpc =>
    have hmoved : (s.goto i .publish).Inv := h.goto rfl (by simp [hpc]) (by simp [hpc, Pc.minding])
      (fun _ => Or.inl rfl) (fun _ => by rw [hpc]; rfl)
    exact hmoved.setWine fun _ => Or.inr (someone_goto rfl)
  · next hpc =>
    split
    · exact h
    split
    · exact h.goto rfl (by simp [hpc]) (fun _ => Or.inl rfl) (fun _ => Or.inl rfl)
        (fun hp => by cases hp)
    next hrunning =>
    obtain ⟨hnone, hpublished⟩ := h.publish hpc (by simpa using hrunning)
    rw [if_neg (by rw [hnone]; exact fun hne => hne rfl)]
    exact hpublished
  · next hpc =>
    split
    · exact h
    next hlock =>
    rw [not_not] at hlock
    split
    · exact h.goto rfl (by simp [hpc]) (by simp [hpc, Pc.minding])
        (by simp [hpc, Pc.mindingWayland, Pc.minding]) (fun hp => by cases hp)
    split
    · next hnone =>
      have hcleared : (Service.goto { s with running := false, lock := s.lock } i .stopWine).Inv :=
        h.clear hpc hlock (Or.inl ⟨rfl, hnone⟩)
      exact hcleared
    · exact h.clear hpc hlock (Or.inr ⟨rfl, rfl⟩)
  · next hpc =>
    split
    · next hended =>
      exact h.joined .stopWine (by rw [hpc]; rfl) hended rfl (fun _ => rfl) (fun _ => rfl)
        (fun hp => by cases hp)
    · exact h
  · next hpc =>
    have hcleared : Service.Inv { s with wineGuards := [] } := h.setWine fun hne => absurd rfl hne
    exact hcleared.goto rfl (by simp [hpc]) (fun _ => Or.inr (Or.inl rfl)) (fun _ => Or.inl rfl)
      (fun hp => by cases hp)
  · next hpc =>
    exact h.stopWayland.goto rfl (by simp [hpc]) (by simp [hpc, Pc.minding])
      (fun _ => Or.inr (Or.inl rfl)) (fun hp => by cases hp)
  · exact h

/-- A poll loop that goes on is one that ran. -/
theorem Service.Inv.setPoll (h : s.Inv) {j : ℕ} (hj : s.polls j ≠ .finished) (pc : PollPc) :
    Service.Inv { s with polls := Function.update s.polls j pc } :=
  ⟨h.alive, h.holder, fun k hk => by
      by_cases hkj : k = j
      · rw [hkj]
        exact h.owned j hj
      · exact h.owned k (by rwa [← Function.update_of_ne hkj pc s.polls]),
    h.joinable, h.wine, h.wayland, h.alone, h.unpublished⟩

theorem poll_inv (h : s.Inv) (j : ℕ) (listed : List Listed) : (s.pollStep j listed).Inv := by
  unfold Service.pollStep
  split
  · next hj => exact h.setPoll (by rw [hj]; exact PollPc.noConfusion) _
  · next hj => exact h.setPoll (by rw [hj]; exact PollPc.noConfusion) _
  · next hj =>
    have hrun : s.polls j ≠ .finished := by rw [hj]; exact PollPc.noConfusion
    refine (h.setPoll hrun .head).setWine fun _ => ?_
    -- the loop is the one of the handle, so somebody is there to join it
    have hjoinable := h.joinable (by rw [h.owned j hrun]; exact Option.some_ne_none j)
    exact hjoinable.imp_right fun ⟨k, hk⟩ => ⟨k, by
      rw [show ({ s with polls := Function.update s.polls j .head } : Service).calls k = .joinPoll from
        of_decide_eq_true hk]
      rfl⟩
  · exact h

/-- **One step.** -/
theorem service_step_inv (h : s.Inv) (a : Act) (hone : OneStart s a) : (s.step a).Inv := by
  unfold Service.step
  rw [if_neg (by rw [h.alive]; exact Bool.false_ne_true)]
  cases a with
  | start i =>
    simp only
    split
    · next hpc =>
      exact h.goto rfl (by simp [hpc]) (by simp [hpc, Pc.minding])
        (by simp [hpc, Pc.mindingWayland, Pc.minding]) (fun hp => by cases hp)
    · exact h
  | stop i =>
    simp only
    split
    · next hpc =>
      exact h.goto rfl (by simp [hpc]) (by simp [hpc, Pc.minding])
        (by simp [hpc, Pc.mindingWayland, Pc.minding]) (fun hp => by cases hp)
    · exact h
  | call i listed => exact call_inv h hone
  | poll j listed => exact poll_inv h j listed

/-! ## All runs -/

/-- **Lifecycle.** In every run in which no `start` sets the flag while
another is between its two parts, the handle is never assigned while it is
joinable, at most one poll loop runs, and a service at rest that is not
running has no guard running. -/
theorem lifecycle_safe (acts : List Act)
    (hone : Machine.Meets Service.step OneStart .fresh acts) :
    Machine.Throughout Service.step Service.Safe .fresh acts :=
  Machine.Throughout.mono (fun _ h => Service.Inv.safe h)
    (Machine.throughout_of_invariant (fun _ a h => service_step_inv h a) fresh_inv hone)

theorem lifecycle_safe_once :
    Machine.Throughout Service.step Service.Safe .fresh
      [.start 0, .call 0 [], .call 0 [], .call 0 [], .call 0 [⟨ascii "win", true⟩], .call 0 []] := by
  refine lifecycle_safe _ ⟨trivial, fun _ _ _ k => ?_, fun h => absurd h (by decide),
    fun h => absurd h (by decide), fun h => absurd h (by decide), fun h => absurd h (by decide), trivial⟩
  by_cases hk : k = 0
  · subst hk
    decide
  · show (Function.update (fun _ => Pc.returned) 0 Pc.tryLock k).starting = false
    rw [Function.update_of_ne hk]
    rfl

/-- **Two starts and a stop.** Thread 0 has set the flag; thread 1 stops,
and starts again; both starts go on to publish. -/
theorem overlapping_starts_terminate :
    ¬Machine.Throughout Service.step Service.Safe .fresh
      [.start 0, .call 0 [], .stop 1, .call 1 [], .call 1 [], .call 1 [], .start 1, .call 1 [], .call 1 [],
        .call 1 [], .call 1 [], .call 1 [], .call 0 [], .call 0 [], .call 0 [], .call 0 []] := by
  intro h
  exact absurd h.last.alive (by decide)

end Supervisor

end Muplar
