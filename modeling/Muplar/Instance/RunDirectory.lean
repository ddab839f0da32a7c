import Mathlib.Logic.Function.Basic
import Muplar.Common.Run
import Muplar.Prefix.Config
/-!
# The run directory of an instance

A launch writes its process number into the pid file of its prefix and
removes the file at its end if the number is still its own. For an Android
prefix the same file is the pid file of `muplard`, which writes its number
when it starts and removes file and socket when it ends, whosever they are
by then. `stop_muplard` signals the process of the file, and a query of
the state removes the file of a process that is gone.

Every file operation is a step, and processes are anywhere between two.
The state the file tells is true as long as no step takes the file from
a process that relies on it (`state_truthful`).
-/

namespace Muplar

namespace Instance

open Machine Prefix

/-! ## Processes -/

/-- Where a process is. -/
inductive Stage
  /-- not started -/
  | unborn
  /-- a launch, before it registers -/
  | launching
  /-- a launch that has truncated the pid file and not written it -/
  | opened (inode : ℕ)
  /-- a launch that runs; a dispatched app has not registered -/
  | running (registered : Bool)
  /-- a launch that has found no live socket, about to fork `muplard` -/
  | forking (registered : Bool)
  /-- a launch at its end, that has read its own number -/
  | leaving
  /-- `muplard`, at its beginning -/
  | starting
  /-- `muplard`, behind the removal of the socket -/
  | unlinked
  /-- `muplard`, listening -/
  | bound
  /-- `muplard`, having truncated the pid file and not written it -/
  | daemonOpened (inode : ℕ)
  /-- `muplard` in its loop -/
  | serving
  /-- `muplard` behind its loop -/
  | stopping
  /-- `muplard`, behind the removal of its socket -/
  | closed
  /-- `stop_muplard`, at its beginning -/
  | stopRead
  /-- `stop_muplard`, with what it has read -/
  | stopKill (pid : Option ℕ)
  /-- `stop_muplard`, at the removal of the socket -/
  | stopSocket
  /-- `stop_muplard`, at the removal of the pid file -/
  | stopPid
  /-- `query_prefix_state`, at its beginning -/
  | queryRead
  /-- `query_prefix_state`, with what it has read -/
  | queryKill (pid : ℕ)
  /-- `query_prefix_state`, at the removal of the pid file -/
  | queryRemove
  | gone
  deriving DecidableEq

namespace Stage

/-- `kill(pid, 0) == 0`. -/
def alive : Stage → Bool
  | unborn | gone => false
  | _ => true

/-- A launch that has registered and has not begun to leave. -/
def registered : Stage → Bool
  | running registered | forking registered => registered
  | _ => false

/-- Between the start of a process and its first write of the pid file. -/
def fresh : Stage → Bool
  | launching | opened _ | starting | unlinked | bound | daemonOpened _ => true
  | _ => false

/-- The file that is open for the process's number. -/
def inode : Stage → Option ℕ
  | opened inode | daemonOpened inode => some inode
  | _ => none

/-- The process lives and has written its number. -/
def written : Stage → Bool
  | running registered | forking registered => registered
  | leaving | serving | stopping | closed => true
  | _ => false

/-- `muplard`: it has a handler for `SIGTERM`. -/
def handles : Stage → Bool
  | starting | unlinked | bound | daemonOpened _ | serving | stopping | closed => true
  | _ => false

/-- `muplard` accepts connections. -/
def listening : Stage → Bool
  | bound | daemonOpened _ | serving => true
  | _ => false

end Stage

/-- The pid file: it is empty between its truncation and its write. -/
structure PidFile where
  inode : ℕ
  pid : Option ℕ
  deriving DecidableEq

/-- The run directory and the processes. The socket is the process that
bound it, `born` is the number of the next process, which is never used
again, and `wronged` says that a process at its end has removed a file of
another that is alive. -/
structure RunDir where
  pidFile : Option PidFile := none
  socket : Option ℕ := none
  procs : ℕ → Stage := fun _ => .unborn
  born : ℕ := 2
  inodes : ℕ := 0
  wronged : Bool := false

/-- What may happen next. -/
inductive Event
  /-- A launch is started; a dispatched app does not register. -/
  | launch (registers : Bool)
  /-- `stop_muplard` is called. -/
  | stop
  /-- `query_prefix_state` is called. -/
  | query
  /-- A process goes on. -/
  | step (pid : ℕ)
  /-- A launch that runs calls `ensure_muplard`. -/
  | ensure (pid : ℕ)
  /-- A launch that runs comes to its end. -/
  | leave (pid : ℕ)
  /-- Somebody sends `SIGTERM`. -/
  | signal (pid : ℕ)
  | crash (pid : ℕ)

namespace RunDir

def goto (d : RunDir) (pid : ℕ) (stage : Stage) : RunDir :=
  { d with procs := Function.update d.procs pid stage }

/-- A process is started. -/
def spawn (d : RunDir) (stage : Stage) : RunDir :=
  { d.goto d.born stage with born := d.born + 1 }

/-- The number in the pid file. -/
def content (d : RunDir) : Option ℕ :=
  d.pidFile.bind PidFile.pid

/-- `read_prefix_pid`. -/
def readPrefixPid (d : RunDir) : ℕ :=
  d.content.getD 0

/-- `query_prefix_state` answers `Running`, where nothing comes between. -/
def queryPrefixState (d : RunDir) : Bool :=
  0 < d.readPrefixPid && (d.procs d.readPrefixPid).alive

/-- `unix_socket_is_live`. -/
def socketLive (d : RunDir) : Bool :=
  d.socket.any fun pid => (d.procs pid).listening

/-- The pid file is opened and truncated. -/
def openPid (d : RunDir) (pid : ℕ) (stage : ℕ → Stage) : RunDir :=
  match d.pidFile with
  | some file => { d with pidFile := some { file with pid := none } }.goto pid (stage file.inode)
  | none =>
    { d with pidFile := some ⟨d.inodes, none⟩, inodes := d.inodes + 1 }.goto pid (stage d.inodes)

/-- A process writes its number into the file it has opened, which may
not have its name any more. -/
def writePid (d : RunDir) (pid inode : ℕ) : RunDir :=
  { d with pidFile := d.pidFile.map fun file =>
      if file.inode = inode then { file with pid := some pid } else file }

/-- The file is another's, that is alive. -/
def others (d : RunDir) (pid : ℕ) (owner : Option ℕ) : Bool :=
  owner.any fun p => p ≠ pid && (d.procs p).alive

/-- `SIGTERM`: `muplard` leaves its loop, where it is in it, and any other
process goes. -/
def signal (d : RunDir) (pid : ℕ) : RunDir :=
  if d.procs pid = .serving then d.goto pid .stopping
  else if (d.procs pid).handles || !(d.procs pid).alive then d
  else d.goto pid .gone

/-- A process goes on. -/
def step (d : RunDir) (pid : ℕ) : RunDir :=
  match d.procs pid with
  | .launching => d.openPid pid .opened
  | .opened inode => (d.writePid pid inode).goto pid (.running true)
  | .forking registered => (d.goto pid (.running registered)).spawn .starting
  | .leaving =>
    { d with pidFile := none, wronged := d.wronged || d.others pid d.content }.goto pid .gone
  | .starting => { d with socket := none }.goto pid .unlinked
  | .unlinked =>
    if d.socket = none then { d with socket := some pid }.goto pid .bound else d.goto pid .gone
  | .bound => d.openPid pid .daemonOpened
  | .daemonOpened inode => (d.writePid pid inode).goto pid .serving
  | .stopping =>
    { d with socket := none, wronged := d.wronged || d.others pid d.socket }.goto pid .closed
  | .closed =>
    { d with pidFile := none, wronged := d.wronged || d.others pid d.content }.goto pid .gone
  | .stopRead => d.goto pid (.stopKill d.content)
  | .stopKill target =>
    match target with
    | some p => if 1 < p then (d.goto pid .stopSocket).signal p else d.goto pid .stopSocket
    | none => d.goto pid .stopSocket
  | .stopSocket => { d with socket := none }.goto pid .stopPid
  | .stopPid => { d with pidFile := none }.goto pid .gone
  | .queryRead =>
    if d.readPrefixPid = 0 then d.goto pid .gone else d.goto pid (.queryKill d.readPrefixPid)
  | .queryKill p => d.goto pid (if (d.procs p).alive then .gone else .queryRemove)
  | .queryRemove => { d with pidFile := none }.goto pid .gone
  | .unborn | .running _ | .serving | .gone => d

/-- One event; only an Android prefix has a `muplard`, and a Wine prefix is
not registered. -/
def next (kind : PrefixKind) (d : RunDir) : Event → RunDir
  | .launch registers =>
    d.spawn (if registers = true ∧ kind ≠ .wine then .launching else .running false)
  | .stop => if kind = .android then d.spawn .stopRead else d
  | .query => d.spawn .queryRead
  | .step pid => d.step pid
  | .ensure pid =>
    match d.procs pid with
    | .running registered =>
      if kind = .android ∧ d.socketLive = false then d.goto pid (.forking registered) else d
    | _ => d
  | .leave pid =>
    match d.procs pid with
    | .running true => d.goto pid (if d.readPrefixPid = pid then .leaving else .gone)
    | .running false => d.goto pid .gone
    | _ => d
  | .signal pid => d.signal pid
  | .crash pid => if (d.procs pid).alive then d.goto pid .gone else d

end RunDir

/-! ## Truth -/

/-- No process is between its start and its first write. -/
def RunDir.Quiet (d : RunDir) : Prop :=
  ∀ pid, (d.procs pid).fresh = false

/-- **The state is truthful.** Where no process has yet to write the pid
file: a launch that is registered finds its instance running, a `muplard`
that serves has its number in the file, and nobody at its end has removed
what is another's. -/
structure RunDir.Truthful (d : RunDir) : Prop where
  running : d.Quiet → ∀ pid, (d.procs pid).registered = true → d.queryPrefixState = true
  daemon : d.Quiet → ∀ pid, d.procs pid = .serving → d.content = some pid
  fair : d.Quiet → d.wronged = false

/-- Nobody relies on the pid file: no launch is registered, no `muplard`
serves, and none has the file open. -/
def RunDir.Unused (d : RunDir) : Prop :=
  ∀ pid, (d.procs pid).registered = false ∧ d.procs pid ≠ .serving ∧ (d.procs pid).inode = none

/-- The file stands for this process: it has its number, or is empty and
open for no other. -/
def RunDir.StandsFor (d : RunDir) (pid : ℕ) : Prop :=
  d.content = some pid ∨
    d.content = none ∧ (d.procs pid).inode ≠ none ∧ ∀ p ≠ pid, (d.procs p).inode = none

/-- The process may go: the file does not stand for it, or no other
relies on the file. -/
def RunDir.Spare (d : RunDir) (pid : ℕ) : Prop :=
  d.StandsFor pid → ∀ p ≠ pid, (d.procs p).registered = false ∧ d.procs p ≠ .serving

/-- **A step that takes no file from others.** A number is written while
no `muplard` serves; the pid file is removed when nobody relies on it, and
at the end of a process not if it is another's; `muplard` removes no
other's socket; and no process is lost that the file stands for. -/
def RunDir.Orderly (d : RunDir) : Event → Prop
  | .step pid =>
    match d.procs pid with
    | .opened _ | .daemonOpened _ => ∀ p, d.procs p ≠ .serving
    | .leaving | .closed =>
      d.pidFile = none ∨ d.Unused ∧ d.others pid d.content = false
    | .stopping => d.others pid d.socket = false
    | .stopKill (some p) => (d.procs p).handles = true ∨ d.Spare p
    | .stopPid | .queryRemove => d.pidFile = none ∨ d.Unused
    | _ => True
  | .signal pid => (d.procs pid).handles = true ∨ d.Spare pid
  | .crash pid => d.Spare pid
  | _ => True

/-! ## The invariant -/

namespace RunDir

/-- Some process has the file open for its number. -/
def Awaited (d : RunDir) : Prop :=
  d.content = none ∧ ∃ p, (d.procs p).inode ≠ none

/-- **The file is relied on.** -/
structure Kept (d : RunDir) : Prop where
  /-- For a registered launch it has the number of a process that lives, or
  will have one. -/
  held : ∀ p, (d.procs p).registered = true →
    (∃ x, d.content = some x ∧ (d.procs x).written = true) ∨ d.Awaited
  /-- For a `muplard` that serves it has its number, or will have another. -/
  served : ∀ q, d.procs q = .serving → d.content = some q ∨ d.Awaited
  /-- What is open has its name. -/
  attached : ∀ p i, (d.procs p).inode = some i → ∃ file, d.pidFile = some file ∧ file.inode = i
  fair : d.wronged = false

/-- Processes have numbers that were given out, and the one in the file is
of a process that has written it. -/
structure Born (d : RunDir) : Prop where
  procs : ∀ p, d.procs p ≠ .unborn → 2 ≤ p ∧ p < d.born
  content : ∀ p, d.content = some p → (d.procs p).written = true ∨ d.procs p = .gone
  two : 2 ≤ d.born

variable {d : RunDir} {pid : ℕ}

@[simp] theorem goto_self (stage : Stage) : (d.goto pid stage).procs pid = stage :=
  Function.update_self ..

theorem goto_ne {p : ℕ} (stage : Stage) (h : p ≠ pid) : (d.goto pid stage).procs p = d.procs p :=
  Function.update_of_ne h ..

@[simp] theorem goto_content (stage : Stage) : (d.goto pid stage).content = d.content := rfl

@[simp] theorem goto_pidFile (stage : Stage) : (d.goto pid stage).pidFile = d.pidFile := rfl

/-- **A process that moves on** and touches no pid file: it gains no role,
and where the file stands for it, it has still written it, or no other
relies on the file. -/
theorem kept_goto (h : d.Kept) {stage : Stage}
    (hreg : stage.registered = true → (d.procs pid).registered = true)
    (hserv : stage = .serving → d.procs pid = .serving)
    (hinode : stage.inode = none)
    (hstands : d.StandsFor pid → (stage.written = true ∧ (d.procs pid).inode = none) ∨
      (stage.registered = false ∧ stage ≠ .serving ∧
        ∀ p ≠ pid, (d.procs p).registered = false ∧ d.procs p ≠ .serving)) :
    (d.goto pid stage).Kept := by
  -- What somebody else relies on, the process leaves as it is.
  have hawaited : ∀ p, ((d.goto pid stage).procs p).registered = true ∨
      (d.goto pid stage).procs p = .serving → d.Awaited → (d.goto pid stage).Awaited := by
    rintro p hp ⟨hnone, w, hw⟩
    by_cases hother : ∃ w ≠ pid, (d.procs w).inode ≠ none
    · obtain ⟨w', hne, hw'⟩ := hother
      exact ⟨hnone, w', by rwa [goto_ne stage hne]⟩
    · have halone : ∀ w ≠ pid, (d.procs w).inode = none := by
        intro w' hne
        by_contra hw'
        exact hother ⟨w', hne, hw'⟩
      have hpid : (d.procs pid).inode ≠ none := by
        by_cases hwp : w = pid
        · rwa [hwp] at hw
        · exact absurd (halone w hwp) hw
      rcases hstands (.inr ⟨hnone, hpid, halone⟩) with ⟨-, hno⟩ | ⟨hr, hs, hrest⟩
      · exact absurd hno hpid
      · by_cases hpp : p = pid
        · subst hpp
          rw [goto_self] at hp
          rcases hp with hp | hp
          · rw [hr] at hp
            cases hp
          · exact absurd hp hs
        · rw [goto_ne stage hpp] at hp
          rcases hp with hp | hp
          · rw [(hrest p hpp).1] at hp
            cases hp
          · exact absurd hp (hrest p hpp).2
  constructor
  · intro p hp
    have hp' : (d.procs p).registered = true := by
      by_cases hpp : p = pid
      · subst hpp
        rw [goto_self] at hp
        exact hreg hp
      · rwa [goto_ne stage hpp] at hp
    rcases h.held p hp' with ⟨x, hx, hwritten⟩ | hw
    · by_cases hxp : x = pid
      · subst hxp
        rcases hstands (.inl hx) with ⟨hs, -⟩ | ⟨hr, -, hrest⟩
        · exact .inl ⟨x, hx, by rwa [goto_self]⟩
        · by_cases hpp : p = x
          · subst hpp
            rw [goto_self, hr] at hp
            cases hp
          · rw [(hrest p hpp).1] at hp'
            cases hp'
      · exact .inl ⟨x, hx, by rwa [goto_ne stage hxp]⟩
    · exact .inr (hawaited p (.inl hp) hw)
  · intro q hq
    have hq' : d.procs q = .serving := by
      by_cases hqp : q = pid
      · subst hqp
        rw [goto_self] at hq
        exact hserv hq
      · rwa [goto_ne stage hqp] at hq
    exact (h.served q hq').imp_right (hawaited q (.inr hq))
  · intro p i hp
    by_cases hpp : p = pid
    · subst hpp
      rw [goto_self, hinode] at hp
      cases hp
    · rw [goto_ne stage hpp] at hp
      exact h.attached p i hp
  · exact h.fair

/-- A process that has no file open and has not written moves on. -/
theorem kept_goto_of_not_written (h : d.Kept) {stage : Stage}
    (hpid : (d.procs pid).inode = none) (hcontent : d.content ≠ some pid)
    (hreg : stage.registered = true → (d.procs pid).registered = true)
    (hserv : stage = .serving → d.procs pid = .serving) (hinode : stage.inode = none) :
    (d.goto pid stage).Kept := by
  refine kept_goto h hreg hserv hinode fun hstands => ?_
  rcases hstands with hs | ⟨-, hs, -⟩
  · exact absurd hs hcontent
  · exact absurd hpid hs

/-- The socket is no part of it. -/
theorem kept_socket (h : d.Kept) (socket : Option ℕ) : ({ d with socket } : RunDir).Kept :=
  { h with }

/-- **The pid file is opened**: who relies on it awaits its number. -/
theorem kept_openPid (h : d.Kept) {stage : ℕ → Stage} (hstage : ∀ i, (stage i).inode = some i) :
    (d.openPid pid stage).Kept := by
  have hall : ∀ d' : RunDir, ∀ i, d'.content = none →
      d'.procs = Function.update d.procs pid (stage i) →
      (∀ p j, (d'.procs p).inode = some j → ∃ file, d'.pidFile = some file ∧ file.inode = j) →
      d'.wronged = d.wronged → d'.Kept := by
    intro d' i hnone hprocs hattached hwronged
    have hself : d'.procs pid = stage i := by
      rw [hprocs]
      exact Function.update_self ..
    have hawaited : d'.Awaited := ⟨hnone, pid, by rw [hself, hstage]; exact Option.some_ne_none _⟩
    exact ⟨fun _ _ => .inr hawaited, fun _ _ => .inr hawaited, hattached, hwronged.trans h.fair⟩
  rw [openPid]
  split
  · next file hfile =>
    refine hall _ file.inode rfl rfl (fun p j hp => ?_) rfl
    by_cases hpp : p = pid
    · subst hpp
      rw [goto_self, hstage] at hp
      exact ⟨_, rfl, Option.some.inj hp⟩
    · rw [goto_ne _ hpp] at hp
      obtain ⟨file', hfile', hj⟩ := h.attached p j hp
      rw [hfile] at hfile'
      exact ⟨_, rfl, by rw [← hj, ← Option.some.inj hfile']⟩
  · next hfile =>
    refine hall _ d.inodes rfl rfl (fun p j hp => ?_) rfl
    by_cases hpp : p = pid
    · subst hpp
      rw [goto_self, hstage] at hp
      exact ⟨_, rfl, Option.some.inj hp⟩
    · rw [goto_ne _ hpp] at hp
      obtain ⟨file', hfile', -⟩ := h.attached p j hp
      rw [hfile] at hfile'
      cases hfile'

/-- **And written**, while no `muplard` serves. -/
theorem kept_writePid (h : d.Kept) {i : ℕ} {stage : Stage} (hpid : (d.procs pid).inode = some i)
    (hnone : ∀ p, d.procs p ≠ .serving) (hstage : stage.written = true)
    (hinode : stage.inode = none) : ((d.writePid pid i).goto pid stage).Kept := by
  obtain ⟨file, hfile, hi⟩ := h.attached pid i hpid
  have hwrites : (d.writePid pid i).pidFile = some { file with pid := some pid } := by
    rw [writePid, hfile]
    exact congrArg some (if_pos hi)
  have hcontent : ((d.writePid pid i).goto pid stage).content = some pid := by
    rw [goto_content, content, hwrites]
    rfl
  constructor
  · intro p _
    exact .inl ⟨pid, hcontent, by rw [goto_self]; exact hstage⟩
  · intro q hq
    by_cases hqp : q = pid
    · exact .inl (by rw [hcontent, hqp])
    · rw [goto_ne _ hqp] at hq
      exact absurd hq (hnone q)
  · intro p j hp
    by_cases hpp : p = pid
    · subst hpp
      rw [goto_self, hinode] at hp
      cases hp
    · rw [goto_ne _ hpp] at hp
      obtain ⟨file', hfile', hj⟩ := h.attached p j hp
      rw [hfile] at hfile'
      refine ⟨_, hwrites, ?_⟩
      rw [← hj, ← Option.some.inj hfile']
  · exact h.fair

/-- **The pid file is removed** when nobody relies on it. -/
theorem kept_remove (h : d.Kept) {wronged : Bool} (hpid : (d.procs pid).inode = none)
    (hok : d.pidFile = none ∨ d.Unused) (hfair : wronged = false) :
    (({ d with pidFile := none, wronged } : RunDir).goto pid .gone).Kept := by
  rcases hok with hnone | hunused
  · have hcontent : d.content = none := by rw [content, hnone]; rfl
    have hgone : (d.goto pid .gone).Kept := by
      refine kept_goto h (fun hr => by cases hr) (fun hs => by cases hs) rfl fun hstands => ?_
      rcases hstands with hs | ⟨-, hs, -⟩
      · rw [hcontent] at hs
        cases hs
      · exact absurd hpid hs
    have hawaited : (d.goto pid .gone).Awaited →
        (({ d with pidFile := none, wronged } : RunDir).goto pid .gone).Awaited :=
      fun haw => ⟨rfl, haw.2⟩
    refine ⟨fun p hp => ?_, fun q hq => ?_, fun p i hp => ?_, hfair⟩
    · rcases hgone.held p hp with ⟨x, hx, -⟩ | haw
      · rw [goto_content, hcontent] at hx
        cases hx
      · exact .inr (hawaited haw)
    · rcases hgone.served q hq with hx | haw
      · rw [goto_content, hcontent] at hx
        cases hx
      · exact .inr (hawaited haw)
    · obtain ⟨file, hfile, -⟩ := hgone.attached p i hp
      rw [goto_pidFile, hnone] at hfile
      cases hfile
  · -- Nobody is registered, serves or has the file open.
    have hprocs : ∀ p,
        (({ d with pidFile := none, wronged } : RunDir).goto pid .gone).procs p = .gone ∨
        (({ d with pidFile := none, wronged } : RunDir).goto pid .gone).procs p = d.procs p := by
      intro p
      by_cases hpp : p = pid
      · subst hpp
        exact .inl (goto_self _)
      · exact .inr (goto_ne _ hpp)
    refine ⟨fun p hp => ?_, fun q hq => ?_, fun p i hp => ?_, hfair⟩
    · rcases hprocs p with hgone | hsame
      · rw [hgone] at hp
        cases hp
      · rw [hsame, (hunused p).1] at hp
        cases hp
    · rcases hprocs q with hgone | hsame
      · rw [hgone] at hq
        cases hq
      · rw [hsame] at hq
        exact absurd hq (hunused q).2.1
    · rcases hprocs p with hgone | hsame
      · rw [hgone] at hp
        cases hp
      · rw [hsame, (hunused p).2.2] at hp
        cases hp

/-- A process that may go, goes. -/
theorem kept_gone (h : d.Kept) (hok : d.Spare pid) : (d.goto pid .gone).Kept :=
  kept_goto h (fun hr => by cases hr) (fun hs => by cases hs) rfl
    fun hstands => .inr ⟨rfl, by simp, hok hstands⟩

/-- `SIGTERM` reaches `muplard`, which has its number in the file still, or
a process that may go. -/
theorem kept_signal (h : d.Kept) (hok : (d.procs pid).handles = true ∨ d.Spare pid) :
    (d.signal pid).Kept := by
  rw [signal]
  split
  · next hserving =>
    exact kept_goto h (fun hr => by cases hr) (fun hs => by cases hs) rfl
      fun _ => .inl ⟨rfl, by rw [hserving]; rfl⟩
  · split
    · exact h
    · next hdies =>
      rw [Bool.or_eq_true, not_or] at hdies
      exact kept_gone h (hok.resolve_left hdies.1)

theorem Born.unborn (hb : d.Born) : d.procs d.born = .unborn := by
  by_contra hne
  exact Nat.lt_irrefl _ (hb.procs d.born hne).2

/-- The number in the file is of no process that has not written it. -/
theorem Born.not_content (hb : d.Born) (hwritten : (d.procs pid).written = false)
    (hgone : d.procs pid ≠ .gone) : d.content ≠ some pid := by
  intro hcontent
  rcases hb.content pid hcontent with hw | hg
  · rw [hwritten] at hw
    cases hw
  · exact hgone hg

/-- A process is started. -/
theorem kept_spawn (h : d.Kept) (hb : d.Born) {stage : Stage} (hreg : stage.registered = false)
    (hserv : stage ≠ .serving) (hinode : stage.inode = none) : (d.spawn stage).Kept := by
  have hcontent : d.content ≠ some d.born :=
    hb.not_content (by rw [hb.unborn]; rfl) (by rw [hb.unborn]; simp)
  have hgoto : (d.goto d.born stage).Kept :=
    kept_goto_of_not_written h (by rw [hb.unborn]; rfl) hcontent
      (fun hr => by rw [hreg] at hr; cases hr) (fun hs => absurd hs hserv) hinode
  exact { hgoto with }

theorem born_spawn (hb : d.Born) (stage : Stage) : (d.spawn stage).Born where
  procs := by
    intro p hp
    by_cases hpb : p = d.born
    · subst hpb
      exact ⟨hb.two, Nat.lt_succ_self _⟩
    · have hp' : (d.goto d.born stage).procs p ≠ .unborn := hp
      rw [goto_ne stage hpb] at hp'
      exact ⟨(hb.procs p hp').1, Nat.lt_succ_of_lt (hb.procs p hp').2⟩
  content := by
    intro p hp
    have hpb : p ≠ d.born := by
      rintro rfl
      exact hb.not_content (by rw [hb.unborn]; rfl) (by rw [hb.unborn]; simp) hp
    have hsame : (d.spawn stage).procs p = d.procs p := goto_ne stage hpb
    rw [hsame]
    exact hb.content p hp
  two := Nat.le_succ_of_le hb.two

/-- A process that moves on keeps its number, and has written it still or
is gone. -/
theorem born_goto (hb : d.Born) {stage : Stage} (hpid : d.procs pid ≠ .unborn)
    (hstage : d.content = some pid → stage.written = true ∨ stage = .gone) :
    (d.goto pid stage).Born where
  procs := by
    intro p hp
    by_cases hpp : p = pid
    · rw [hpp]
      exact hb.procs pid hpid
    · rw [goto_ne stage hpp] at hp
      exact hb.procs p hp
  content := by
    intro p hp
    by_cases hpp : p = pid
    · subst hpp
      rw [goto_self]
      exact hstage hp
    · rw [goto_ne stage hpp]
      exact hb.content p hp
  two := hb.two

/-- Another pid file, or none. -/
theorem born_pidFile (hb : d.Born) {d' : RunDir} (hprocs : d'.procs = d.procs)
    (hborn : d'.born = d.born)
    (hcontent : ∀ p, d'.content = some p → (d.procs p).written = true ∨ d.procs p = .gone) :
    d'.Born where
  procs := by
    rw [hprocs, hborn]
    exact hb.procs
  content := by
    rw [hprocs]
    exact hcontent
  two := by
    rw [hborn]
    exact hb.two

theorem born_openPid (hb : d.Born) {stage : ℕ → Stage} (hpid : d.procs pid ≠ .unborn) :
    (d.openPid pid stage).Born := by
  have hempty : ∀ (d' : RunDir) (s : Stage), d'.procs = d.procs → d'.born = d.born →
      d'.content = none → (d'.goto pid s).Born := by
    intro d' s hprocs hborn hnone
    have hb' : d'.Born := born_pidFile hb hprocs hborn fun p hp => by
      rw [hnone] at hp
      cases hp
    refine born_goto hb' (by rwa [hprocs]) fun hp => ?_
    rw [hnone] at hp
    cases hp
  rw [openPid]
  split
  · exact hempty { d with pidFile := some _ } _ rfl rfl rfl
  · exact hempty { d with pidFile := some _, inodes := d.inodes + 1 } _ rfl rfl rfl

theorem born_writePid (hb : d.Born) {i : ℕ} {stage : Stage} (hpid : d.procs pid ≠ .unborn)
    (hstage : stage.written = true) : ((d.writePid pid i).goto pid stage).Born := by
  have hcontent : ∀ p, (d.writePid pid i).content = some p → p = pid ∨ d.content = some p := by
    intro p hp
    rw [content, writePid, Option.bind_map, Option.bind_eq_some_iff] at hp
    obtain ⟨file, hfile, hp⟩ := hp
    simp only [Function.comp_apply] at hp
    split at hp
    · exact .inl (Option.some.inj hp).symm
    · exact .inr (by rw [content, hfile]; exact hp)
  have hself : (d.goto pid stage).Born := born_goto hb hpid fun _ => .inl hstage
  refine born_pidFile (d := d.goto pid stage) hself rfl rfl fun p hp => ?_
  rcases hcontent p hp with rfl | hp
  · exact .inl (by rw [goto_self]; exact hstage)
  · exact hself.content p hp

theorem born_remove (hb : d.Born) {wronged : Bool} (hpid : d.procs pid ≠ .unborn) :
    (({ d with pidFile := none, wronged } : RunDir).goto pid .gone).Born := by
  have hnone : ({ d with pidFile := none, wronged } : RunDir).Born :=
    born_pidFile hb rfl rfl fun _ hp => by cases hp
  exact born_goto hnone hpid fun _ => .inr rfl

theorem born_signal (hb : d.Born) : (d.signal pid).Born := by
  rw [signal]
  split
  · next hserving => exact born_goto hb (by rw [hserving]; simp) fun _ => .inl rfl
  · split
    · exact hb
    · next hdies =>
      rw [Bool.or_eq_true, not_or] at hdies
      refine born_goto hb (fun hunborn => ?_) fun _ => .inr rfl
      rw [hunborn] at hdies
      exact hdies.2 rfl

/-- The invariant of a run. -/
structure Sound (d : RunDir) : Prop where
  kept : d.Kept
  born : d.Born

/-- A process of no role moves on to no role. -/
theorem sound_goto (h : d.Sound) {stage : Stage} (hwritten : (d.procs pid).written = false)
    (hinode : (d.procs pid).inode = none) (hlive : d.procs pid ≠ .gone)
    (hborn : d.procs pid ≠ .unborn) (hreg : stage.registered = false) (hserv : stage ≠ .serving)
    (hstage : stage.inode = none) : (d.goto pid stage).Sound := by
  have hcontent := h.born.not_content hwritten hlive
  exact ⟨kept_goto_of_not_written h.kept hinode hcontent
    (fun hr => by rw [hreg] at hr; cases hr) (fun hs => absurd hs hserv) hstage,
    born_goto h.born hborn fun hc => absurd hc hcontent⟩

theorem sound_socket (h : d.Sound) (socket : Option ℕ) : ({ d with socket } : RunDir).Sound :=
  ⟨kept_socket h.kept socket, born_pidFile h.born rfl rfl h.born.content⟩

/-- Who may be signalled may still be when a process of no role has moved
on. -/
theorem spare_goto (h : d.Sound) {stage : Stage} {p : ℕ}
    (hwritten : (d.procs pid).written = false) (hinode : (d.procs pid).inode = none)
    (hlive : d.procs pid ≠ .gone) (hstage : stage.inode = none) (hreg : stage.registered = false)
    (hserv : stage ≠ .serving) (hok : (d.procs p).handles = true ∨ d.Spare p) :
    ((d.goto pid stage).procs p).handles = true ∨ (d.goto pid stage).Spare p := by
  by_cases hp : p = pid
  · subst hp
    refine .inr fun hstands => ?_
    rcases hstands with hc | ⟨-, hi, -⟩
    · exact absurd hc (h.born.not_content hwritten hlive)
    · rw [goto_self, hstage] at hi
      exact absurd rfl hi
  · refine hok.imp (fun hhandles => by rwa [goto_ne stage hp]) fun hspare hstands => ?_
    have hbefore : d.StandsFor p := by
      refine hstands.imp_right fun ⟨hnone, hi, hrest⟩ => ⟨hnone, ?_, fun q hq => ?_⟩
      · rwa [goto_ne stage hp] at hi
      · by_cases hqp : q = pid
        · rwa [hqp]
        · rw [← goto_ne stage hqp]
          exact hrest q hq
    intro q hq
    by_cases hqp : q = pid
    · rw [hqp, goto_self]
      exact ⟨hreg, hserv⟩
    · rw [goto_ne stage hqp]
      exact hspare hbefore q hq

theorem sound_openPid (h : d.Sound) {stage : ℕ → Stage} (hstage : ∀ i, (stage i).inode = some i)
    (hborn : d.procs pid ≠ .unborn) : (d.openPid pid stage).Sound :=
  ⟨kept_openPid h.kept hstage, born_openPid h.born hborn⟩

theorem sound_writePid (h : d.Sound) {i : ℕ} {stage : Stage} (hinode : (d.procs pid).inode = some i)
    (hborn : d.procs pid ≠ .unborn) (hnone : ∀ p, d.procs p ≠ .serving)
    (hwritten : stage.written = true) (hstage : stage.inode = none) :
    ((d.writePid pid i).goto pid stage).Sound :=
  ⟨kept_writePid h.kept hinode hnone hwritten hstage, born_writePid h.born hborn hwritten⟩

/-- A process that finds the file its own, or none, removes it. -/
theorem sound_removeOwn (h : d.Sound) (hinode : (d.procs pid).inode = none)
    (hborn : d.procs pid ≠ .unborn)
    (hok : d.pidFile = none ∨ d.Unused ∧ d.others pid d.content = false) :
    ({ d with pidFile := none, wronged := d.wronged || d.others pid d.content }.goto pid
      .gone).Sound := by
  have hfair : (d.wronged || d.others pid d.content) = false := by
    rcases hok with hnone | ⟨-, hothers⟩
    · rw [h.kept.fair, content, hnone]
      rfl
    · rw [h.kept.fair, hothers]
      rfl
  exact ⟨kept_remove h.kept hinode (hok.imp_right And.left) hfair, born_remove h.born hborn⟩

theorem sound_remove (h : d.Sound) (hinode : (d.procs pid).inode = none)
    (hborn : d.procs pid ≠ .unborn) (hok : d.pidFile = none ∨ d.Unused) :
    ({ d with pidFile := none }.goto pid .gone).Sound :=
  ⟨kept_remove h.kept hinode hok h.kept.fair, born_remove h.born hborn⟩

/-- **A process goes on**, in order. -/
theorem sound_step (h : d.Sound) (hok : d.Orderly (.step pid)) : (d.step pid).Sound := by
  have hk := h.kept
  have hb := h.born
  simp only [Orderly] at hok
  rw [step]
  cases hstage : d.procs pid with
  | unborn => exact h
  | running registered => exact h
  | serving => exact h
  | gone => exact h
  | launching => exact sound_openPid h (fun _ => rfl) (by rw [hstage]; simp)
  | bound => exact sound_openPid h (fun _ => rfl) (by rw [hstage]; simp)
  | opened i =>
    rw [hstage] at hok
    exact sound_writePid h (by rw [hstage]; rfl) (by rw [hstage]; simp) hok rfl rfl
  | daemonOpened i =>
    rw [hstage] at hok
    exact sound_writePid h (by rw [hstage]; rfl) (by rw [hstage]; simp) hok rfl rfl
  | forking registered =>
    have hgoto : (d.goto pid (.running registered)).Sound := by
      cases registered with
      | true =>
        exact ⟨kept_goto hk (fun _ => by rw [hstage]; rfl) (fun hs => by cases hs) rfl
          fun _ => .inl ⟨rfl, by rw [hstage]; rfl⟩,
          born_goto hb (by rw [hstage]; simp) fun _ => .inl rfl⟩
      | false =>
        exact sound_goto h (by rw [hstage]; rfl) (by rw [hstage]; rfl) (by rw [hstage]; simp)
          (by rw [hstage]; simp) rfl (by simp) rfl
    exact ⟨kept_spawn hgoto.kept hgoto.born rfl (by simp) rfl, born_spawn hgoto.born _⟩
  | leaving =>
    rw [hstage] at hok
    exact sound_removeOwn h (by rw [hstage]; rfl) (by rw [hstage]; simp) hok
  | closed =>
    rw [hstage] at hok
    exact sound_removeOwn h (by rw [hstage]; rfl) (by rw [hstage]; simp) hok
  | stopPid =>
    rw [hstage] at hok
    exact sound_remove h (by rw [hstage]; rfl) (by rw [hstage]; simp) hok
  | queryRemove =>
    rw [hstage] at hok
    exact sound_remove h (by rw [hstage]; rfl) (by rw [hstage]; simp) hok
  | stopping =>
    rw [hstage] at hok
    have hgoto : (d.goto pid .closed).Sound :=
      ⟨kept_goto hk (fun hr => by cases hr) (fun hs => by cases hs) rfl
        fun _ => .inl ⟨rfl, by rw [hstage]; rfl⟩,
        born_goto hb (by rw [hstage]; simp) fun _ => .inl rfl⟩
    have hfair : (d.wronged || d.others pid d.socket) = false := by
      rw [hk.fair, show d.others pid d.socket = false from hok]
      rfl
    exact ⟨{ hgoto.kept with fair := hfair }, { hgoto.born with }⟩
  | starting =>
    exact sound_goto (sound_socket h none) (by simp [hstage, Stage.written])
      (by simp [hstage, Stage.inode]) (by simp [hstage]) (by simp [hstage]) rfl (by simp) rfl
  | unlinked =>
    dsimp only
    split
    · exact sound_goto (sound_socket h (some pid)) (by simp [hstage, Stage.written])
        (by simp [hstage, Stage.inode]) (by simp [hstage]) (by simp [hstage]) rfl (by simp) rfl
    · exact sound_goto h (by rw [hstage]; rfl) (by rw [hstage]; rfl) (by rw [hstage]; simp)
        (by rw [hstage]; simp) rfl (by simp) rfl
  | stopRead =>
    exact sound_goto h (by rw [hstage]; rfl) (by rw [hstage]; rfl) (by rw [hstage]; simp)
      (by rw [hstage]; simp) rfl (by simp) rfl
  | stopKill target =>
    rw [hstage] at hok
    have hgoto : (d.goto pid .stopSocket).Sound :=
      sound_goto h (by rw [hstage]; rfl) (by rw [hstage]; rfl) (by rw [hstage]; simp)
        (by rw [hstage]; simp) rfl (by simp) rfl
    dsimp only
    split
    · next p =>
      split
      · refine ⟨kept_signal hgoto.kept ?_, born_signal hgoto.born⟩
        exact spare_goto h (by rw [hstage]; rfl) (by rw [hstage]; rfl) (by rw [hstage]; simp) rfl
          rfl (by simp) hok
      · exact hgoto
    · exact hgoto
  | stopSocket =>
    exact sound_goto (sound_socket h none) (by simp [hstage, Stage.written])
      (by simp [hstage, Stage.inode]) (by simp [hstage]) (by simp [hstage]) rfl (by simp) rfl
  | queryRead =>
    dsimp only
    split
    all_goals
      exact sound_goto h (by rw [hstage]; rfl) (by rw [hstage]; rfl) (by rw [hstage]; simp)
        (by rw [hstage]; simp) rfl (by simp) rfl
  | queryKill p =>
    dsimp only
    split
    all_goals
      exact sound_goto h (by rw [hstage]; rfl) (by rw [hstage]; rfl) (by rw [hstage]; simp)
        (by rw [hstage]; simp) rfl (by simp) rfl

/-- **Every event in order** keeps the invariant. -/
theorem sound_next (kind : PrefixKind) (h : d.Sound) (e : Event) (hok : d.Orderly e) :
    (d.next kind e).Sound := by
  have hk := h.kept
  have hb := h.born
  cases e with
  | launch registers =>
    simp only [next]
    split
    · exact ⟨kept_spawn hk hb rfl (by simp) rfl, born_spawn hb _⟩
    · exact ⟨kept_spawn hk hb rfl (by simp) rfl, born_spawn hb _⟩
  | stop =>
    simp only [next]
    split
    · exact ⟨kept_spawn hk hb rfl (by simp) rfl, born_spawn hb _⟩
    · exact h
  | query => exact ⟨kept_spawn hk hb rfl (by simp) rfl, born_spawn hb _⟩
  | step pid => exact sound_step h hok
  | ensure pid =>
    simp only [next]
    split
    · next registered hstage =>
      split
      · cases registered with
        | true =>
          exact ⟨kept_goto hk (fun _ => by rw [hstage]; rfl) (fun hs => by cases hs) rfl
            fun _ => .inl ⟨rfl, by rw [hstage]; rfl⟩,
            born_goto hb (by rw [hstage]; simp) fun _ => .inl rfl⟩
        | false =>
          exact sound_goto h (by rw [hstage]; rfl) (by rw [hstage]; rfl) (by rw [hstage]; simp)
            (by rw [hstage]; simp) rfl (by simp) rfl
      · exact h
    · exact h
  | leave pid =>
    simp only [next]
    split
    · next hstage =>
      split
      · exact ⟨kept_goto hk (fun hr => by cases hr) (fun hs => by cases hs) rfl
          fun _ => .inl ⟨rfl, by rw [hstage]; rfl⟩,
          born_goto hb (by rw [hstage]; simp) fun _ => .inl rfl⟩
      · -- The file does not have its number, so that nobody loses it.
        next hother =>
        have hcontent : d.content ≠ some pid := by
          intro hc
          rw [readPrefixPid, hc] at hother
          exact hother rfl
        exact ⟨kept_goto_of_not_written hk (by rw [hstage]; rfl) hcontent (fun hr => by cases hr)
          (fun hs => by cases hs) rfl, born_goto hb (by rw [hstage]; simp) fun _ => .inr rfl⟩
    · next hstage =>
      exact sound_goto h (by rw [hstage]; rfl) (by rw [hstage]; rfl) (by rw [hstage]; simp)
        (by rw [hstage]; simp) rfl (by simp) rfl
    · exact h
  | signal pid => exact ⟨kept_signal hk hok, born_signal hb⟩
  | crash pid =>
    simp only [next]
    split
    · next halive =>
      refine ⟨kept_gone hk hok, born_goto hb (fun hunborn => ?_) fun _ => .inr rfl⟩
      rw [hunborn] at halive
      cases halive
    · exact h

theorem alive_of_written {s : Stage} (h : s.written = true) : s.alive = true := by
  cases s <;> first | rfl | cases h

theorem fresh_of_inode {s : Stage} (h : s.inode ≠ none) : s.fresh = true := by
  cases s <;> first | rfl | exact absurd rfl h

/-- The invariant tells the truth. -/
theorem Sound.truthful (h : d.Sound) : d.Truthful := by
  have hawaited : d.Quiet → ¬d.Awaited := by
    rintro hquiet ⟨-, p, hp⟩
    have hfresh := fresh_of_inode hp
    rw [hquiet p] at hfresh
    cases hfresh
  refine ⟨fun hquiet p hp => ?_, fun hquiet q hq => ?_, fun _ => h.kept.fair⟩
  · rcases h.kept.held p hp with ⟨x, hx, hwritten⟩ | haw
    · have halive := alive_of_written hwritten
      have hx2 : 2 ≤ x := (h.born.procs x fun hunborn => by rw [hunborn] at halive; cases halive).1
      have hread : d.readPrefixPid = x := by rw [readPrefixPid, hx]; rfl
      rw [queryPrefixState, hread, halive, Bool.and_true, decide_eq_true_eq]
      omega
    · exact absurd haw (hawaited hquiet)
  · exact (h.kept.served q hq).resolve_right (hawaited hquiet)

theorem sound_start : ({} : RunDir).Sound where
  kept := {
    held := fun _ hp => by cases hp
    served := fun _ hq => by cases hq
    attached := fun _ _ hp => by cases hp
    fair := rfl }
  born := {
    procs := fun _ hp => absurd rfl hp
    content := fun _ hp => by cases hp
    two := Nat.le_refl _ }

end RunDir

/-- A launch registers, starts `muplard`, and ends. -/
def launchOnce : List Event :=
  [.launch true, .step 2, .step 2, .ensure 2, .step 2, .step 3, .step 3, .step 3, .step 3, .leave 2]

/-- Two launches of an Android prefix overlap: the second registers when
the `muplard` of the first serves, and ends before it. -/
def launchTwice : List Event :=
  [.launch true, .step 2, .step 2, .ensure 2, .step 2, .step 3, .step 3, .step 3, .step 3,
    .launch true, .step 4, .step 4]

theorem launchTwice_procs (p : ℕ) :
    (run (RunDir.next .android) {} launchTwice).procs p =
      if p = 4 then .running true else if p = 3 then .serving
        else if p = 2 then .running true else .unborn := by
  simp [launchTwice, run, RunDir.next, RunDir.spawn, RunDir.step, RunDir.goto, RunDir.openPid,
    RunDir.writePid, RunDir.socketLive, Function.update_apply]

end Instance

end Muplar
