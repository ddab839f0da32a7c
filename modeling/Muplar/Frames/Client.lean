import Mathlib.Data.Nat.Basic
import Mathlib.Logic.Function.Basic
import Muplar.Common.Run
/-!
# Frames — the descriptor of a client

The device shell has a thread that accepts clients and reads their frames,
and a main queue on which input is sent back. The descriptor of a client
is handed to the main queue by a block that installs it and taken away by
one that clears it; but it is the thread that closes it, without waiting
for either, and the main queue closes it too, where a write fails or the
window goes.

As long as the main queue closes nothing, and sends input only while the
thread has not closed, every client is closed once
(`clients_closed_once`); and where it does either, there is a run in which
one is closed twice, or a number that stands for something else is hit.
-/

namespace Muplar

namespace Frames

open Machine

/-! ## The two processes -/

/-- What an open descriptor stands for: a client, by the order in which they
are accepted, or anything else. -/
inductive Holder
  | client (k : ℕ)
  | other
  deriving DecidableEq

/-- A descriptor that was accepted: the number, and whose it is. -/
structure ClientFd where
  number : ℕ
  client : ℕ
  deriving DecidableEq

/-- A block on the main queue. -/
inductive Block
  | install (fd : ClientFd)
  | clear (fd : ClientFd)
  deriving DecidableEq

/-- Where the thread of the server is. -/
inductive ServerPc
  | accept
  /-- before it posts the block that installs -/
  | install (fd : ClientFd)
  | read (fd : ClientFd)
  /-- before it posts the block that clears -/
  | clear (fd : ClientFd)
  /-- before it closes -/
  | close (fd : ClientFd)
  | done
  deriving DecidableEq

/-- The client the thread has not closed. -/
def ServerPc.held : ServerPc → Option ClientFd
  | install fd | read fd | clear fd | close fd => some fd
  | accept | done => none

/-- The client that is installed once the queue has run. -/
def ServerPc.posted : ServerPc → Option ClientFd
  | read fd | clear fd => some fd
  | _ => none

/-- `AndroidDeviceShell`, with the descriptors of the process. How often a
client was closed is counted, and whether a write or a close went to a
number that stood for something else. -/
structure AndroidDeviceShell where
  table : ℕ → Option Holder := fun _ => none
  accepted : ℕ := 0
  server : ServerPc := .accept
  queue : List Block := []
  frameClientFd : Option ClientFd := none
  /-- a write of input has failed, and the close comes next -/
  failed : Bool := false
  released : Bool := false
  closes : ℕ → ℕ := fun _ => 0
  struck : Bool := false

/-- A step of one of the two, or of what else the process does. -/
inductive Event
  | accept (number : ℕ)
  | acceptFails
  | postInstall
  /-- the client has gone, or sent what is not a frame -/
  | hangUp
  | postClear
  | closeClient
  /-- the main queue runs its next block -/
  | block
  /-- `sendPointerAtX` and `sendKeyEvent` as far as the write -/
  | input (written : Bool)
  /-- and the rest, where it has failed -/
  | closeAfterInput
  | windowWillClose
  | dealloc
  | openOther (number : ℕ)
  | closeOther (number : ℕ)

namespace AndroidDeviceShell

/-- The number stands for something else by now. -/
def foreign (s : AndroidDeviceShell) (fd : ClientFd) : Bool :=
  (s.table fd.number).any (· ≠ .client fd.client)

/-- `close`. -/
def close (s : AndroidDeviceShell) (fd : ClientFd) : AndroidDeviceShell :=
  { s with
    table := Function.update s.table fd.number none
    closes := Function.update s.closes fd.client (s.closes fd.client + 1)
    struck := s.struck || s.foreign fd }

def setFrameClientFd (s : AndroidDeviceShell) (fd : Option ClientFd) : AndroidDeviceShell :=
  { s with frameClientFd := fd }

/-- `close` of `frameClientFd`, if it is one. -/
def closeFrameClient (s : AndroidDeviceShell) : AndroidDeviceShell :=
  match s.frameClientFd with
  | some fd => (s.close fd).setFrameClientFd none
  | none => s

/-- A block of the main queue. The shell may be gone by then. -/
def runBlock (s : AndroidDeviceShell) : Block → AndroidDeviceShell
  | .install fd =>
    if s.released then s.close fd else s.closeFrameClient.setFrameClientFd (some fd)
  | .clear fd =>
    if !s.released && s.frameClientFd.any (·.number = fd.number) then
      s.setFrameClientFd none
    else s

/-- Input is written to the client. A descriptor that is closed refuses it. -/
def sendInput (s : AndroidDeviceShell) (written : Bool) : AndroidDeviceShell :=
  match s.frameClientFd with
  | some fd =>
    { s with
      struck := s.struck || s.foreign fd
      failed := !written || (s.table fd.number).isNone }
  | none => s

/-- One step. What cannot happen changes nothing; the main queue runs one
thing at a time. -/
def step (s : AndroidDeviceShell) : Event → AndroidDeviceShell
  | .accept number =>
    if s.server = .accept ∧ s.table number = none then
      { s with
        table := Function.update s.table number (some (.client s.accepted))
        accepted := s.accepted + 1
        server := .install ⟨number, s.accepted⟩ }
    else s
  | .acceptFails => if s.server = .accept then { s with server := .done } else s
  | .postInstall =>
    match s.server with
    | .install fd => { s with queue := s.queue ++ [.install fd], server := .read fd }
    | _ => s
  | .hangUp =>
    match s.server with
    | .read fd => { s with server := .clear fd }
    | _ => s
  | .postClear =>
    match s.server with
    | .clear fd => { s with queue := s.queue ++ [.clear fd], server := .close fd }
    | _ => s
  | .closeClient =>
    match s.server with
    | .close fd => { s.close fd with server := .accept }
    | _ => s
  | .block =>
    match s.failed, s.queue with
    | false, b :: queue => { s with queue }.runBlock b
    | _, _ => s
  | .input written => if s.failed || s.released then s else s.sendInput written
  | .closeAfterInput => if s.failed then { s.closeFrameClient with failed := false } else s
  | .windowWillClose => if s.failed || s.released then s else s.closeFrameClient
  | .dealloc =>
    if s.failed || s.released then s else { s.closeFrameClient with released := true }
  | .openOther number =>
    if s.table number = none then
      { s with table := Function.update s.table number (some .other) }
    else s
  | .closeOther number =>
    if s.table number = some .other then
      { s with table := Function.update s.table number none }
    else s

/-! ## What is promised -/

/-- **Every client is closed once**, and not before the thread is done with
it; and nothing was written to or closed under a number that stood for
something else. -/
structure Sound (s : AndroidDeviceShell) : Prop where
  struck : s.struck = false
  once : ∀ k < s.accepted, s.closes k ≤ 1
  closed : ∀ k < s.accepted, (∀ fd ∈ s.server.held, fd.client ≠ k) → s.closes k = 1

/-- **What the main queue may do**: it sends input to a client that the
thread has not closed, and the write succeeds; the window and the shell go
while no client is installed; and no client comes to be installed once the
shell is gone. -/
def Tidy (s : AndroidDeviceShell) : Event → Prop
  | .input written => s.released = true ∨
      ∀ fd ∈ s.frameClientFd, written = true ∧ s.server.held = some fd
  | .windowWillClose | .dealloc => s.released = true ∨ s.frameClientFd = none
  | .block => s.released = true → ∀ fd, s.queue.head? ≠ some (.install fd)
  | _ => True

/-! ## What a tidy run keeps -/

/-- The blocks of the queue install and clear in turn. -/
def Alternates : Option ClientFd → List Block → Option ClientFd → Prop
  | now, [], last => now = last
  | none, .install fd :: queue, last => Alternates (some fd) queue last
  | some now, .clear fd :: queue, last => now = fd ∧ Alternates none queue last
  | _, _ :: _, _ => False

/-- **What a tidy run keeps.** -/
structure Kept (s : AndroidDeviceShell) : Prop where
  alternates : Alternates s.frameClientFd s.queue s.server.posted
  owner : ∀ n k, s.table n = some (.client k) ↔ s.server.held = some ⟨n, k⟩
  held : ∀ fd ∈ s.server.held, s.closes fd.client = 0 ∧ fd.client < s.accepted
  closed : ∀ k < s.accepted, (∀ fd ∈ s.server.held, fd.client ≠ k) → s.closes k = 1
  fresh : ∀ k, s.accepted ≤ k → s.closes k = 0
  known : ∀ fd, s.frameClientFd = some fd ∨ .install fd ∈ s.queue → fd.client < s.accepted
  gone : s.released = true → s.frameClientFd = none
  struck : s.struck = false
  failed : s.failed = false

variable {s : AndroidDeviceShell} {e : Event} {fd : ClientFd}

theorem Kept.sound (h : Kept s) : Sound s where
  struck := h.struck
  once k hk := by
    by_cases hheld : ∀ fd ∈ s.server.held, fd.client ≠ k
    · exact Nat.le_of_eq (h.closed k hk hheld)
    · push Not at hheld
      obtain ⟨fd, hfd, rfl⟩ := hheld
      rw [(h.held fd hfd).1]
      exact Nat.zero_le 1
  closed := h.closed

theorem kept_initial : Kept {} where
  alternates := rfl
  owner := fun _ _ => iff_of_false nofun nofun
  held := nofun
  closed := nofun
  fresh := fun _ _ => rfl
  known := nofun
  gone := nofun
  struck := rfl
  failed := rfl

theorem Kept.not_foreign (h : Kept s) (hheld : s.server.held = some fd) : s.foreign fd = false := by
  rw [foreign, (h.owner fd.number fd.client).mpr hheld]
  simp

/-- Blocks that go on where others end. -/
theorem Alternates.append {now next later : Option ClientFd} {queue more : List Block}
    (h : Alternates now queue next) (hmore : Alternates next more later) :
    Alternates now (queue ++ more) later := by
  induction queue generalizing now with
  | nil =>
    obtain rfl : now = next := h
    exact hmore
  | cons b queue ih =>
    cases now with
    | none =>
      cases b with
      | install fd' => exact ih h
      | clear fd' => exact h
    | some now =>
      cases b with
      | install fd' => exact h
      | clear fd' => exact ⟨h.1, ih h.2⟩

/-- A block that is posted comes last. -/
theorem Alternates.install {now : Option ClientFd} {queue : List Block}
    (h : Alternates now queue none) : Alternates now (queue ++ [.install fd]) (some fd) :=
  h.append (show Alternates none [.install fd] (some fd) from rfl)

theorem Alternates.clear {now : Option ClientFd} {queue : List Block}
    (h : Alternates now queue (some fd)) : Alternates now (queue ++ [.clear fd]) none :=
  h.append (show Alternates (some fd) [.clear fd] none from ⟨rfl, rfl⟩)

/-! ### The thread -/

theorem Kept.accept (h : Kept s) {n : ℕ} (hserver : s.server = .accept)
    (hfree : s.table n = none) : Kept
      { s with
        table := Function.update s.table n (some (.client s.accepted))
        accepted := s.accepted + 1
        server := .install ⟨n, s.accepted⟩ } where
  alternates := by
    have halt := h.alternates
    rw [hserver] at halt
    exact halt
  owner m k := by
    have hnone : s.table m ≠ some (.client k) := fun hm => by
      have hheld := (h.owner m k).mp hm
      rw [hserver] at hheld
      cases hheld
    by_cases hm : m = n
    · subst hm
      show Function.update s.table m _ m = _ ↔ _
      rw [Function.update_self]
      simp [ServerPc.held, eq_comm]
    · show Function.update s.table n _ m = _ ↔ _
      rw [Function.update_of_ne hm]
      refine iff_of_false hnone fun hheld => hm ?_
      simp only [ServerPc.held, Option.some.injEq, ClientFd.mk.injEq] at hheld
      exact hheld.1.symm
  held fd hfd := by
    obtain rfl : (⟨n, s.accepted⟩ : ClientFd) = fd := Option.some.inj hfd
    exact ⟨h.fresh _ (le_refl _), Nat.lt_succ_self _⟩
  closed k hk hne := by
    have hlt : k < s.accepted := by
      have hself : s.accepted ≠ k := hne ⟨n, s.accepted⟩ rfl
      show k < s.accepted
      have hk' : k < s.accepted + 1 := hk
      omega
    exact h.closed k hlt (by rw [hserver]; nofun)
  fresh k hk := h.fresh k (Nat.le_of_succ_le hk)
  known fd hfd := Nat.lt_succ_of_lt (h.known fd hfd)
  gone := h.gone
  struck := h.struck
  failed := h.failed

/-- The thread goes on with the client it has. -/
theorem Kept.proceed (h : Kept s) {server : ServerPc} {queue : List Block}
    (hheld : server.held = s.server.held)
    (halt : Alternates s.frameClientFd (s.queue ++ queue) server.posted)
    (hknown : ∀ fd, .install fd ∈ queue → fd ∈ s.server.held) :
    Kept { s with queue := s.queue ++ queue, server } where
  alternates := halt
  owner n k := by
    show _ ↔ server.held = _
    rw [hheld]
    exact h.owner n k
  held fd hfd := h.held fd (hheld ▸ hfd)
  closed k hk hne := h.closed k hk (hheld ▸ hne)
  fresh := h.fresh
  known fd hfd := by
    rcases hfd with hfd | hfd
    · exact h.known fd (Or.inl hfd)
    · rcases List.mem_append.mp hfd with hfd | hfd
      · exact h.known fd (Or.inr hfd)
      · exact (h.held fd (hknown fd hfd)).2
  gone := h.gone
  struck := h.struck
  failed := h.failed

theorem Kept.closeClient (h : Kept s) (hserver : s.server = .close fd) :
    Kept { s.close fd with server := .accept } where
  alternates := by
    have halt := h.alternates
    rw [hserver] at halt
    exact halt
  owner n k := by
    refine iff_of_false (fun hn => ?_) nofun
    change Function.update s.table fd.number none n = _ at hn
    by_cases hnum : n = fd.number
    · rw [hnum, Function.update_self] at hn
      cases hn
    · rw [Function.update_of_ne hnum] at hn
      have hheld := (h.owner n k).mp hn
      rw [hserver] at hheld
      exact hnum (congrArg ClientFd.number (Option.some.inj hheld)).symm
  held := nofun
  closed k hk _ := by
    show Function.update s.closes fd.client _ k = 1
    by_cases hclient : k = fd.client
    · rw [hclient, Function.update_self, (h.held fd (by rw [hserver]; rfl)).1]
    · rw [Function.update_of_ne hclient]
      refine h.closed k hk fun fd' hfd' => ?_
      rw [hserver] at hfd'
      rw [← Option.some.inj hfd']
      exact Ne.symm hclient
  fresh k hk := by
    have hlt := (h.held fd (by rw [hserver]; rfl)).2
    have hne : k ≠ fd.client := fun he => absurd hlt (not_lt.mpr (he ▸ hk))
    exact (Function.update_of_ne hne _ _).trans (h.fresh k hk)
  known := h.known
  gone := h.gone
  struck := by
    show (s.struck || s.foreign fd) = false
    rw [h.struck, h.not_foreign (by rw [hserver]; rfl)]
    rfl
  failed := h.failed

/-! ### The main queue and the rest -/

theorem closeFrameClient_of_none (hnone : s.frameClientFd = none) : s.closeFrameClient = s := by
  rw [closeFrameClient, hnone]

/-- The next block is run. -/
theorem Kept.next (h : Kept s) {b : Block} {queue : List Block} {now : Option ClientFd}
    (hqueue : s.queue = b :: queue) (halt : Alternates now queue s.server.posted)
    (hnow : ∀ fd, now = some fd → b = .install fd) (hgone : s.released = true → now = none) :
    Kept { s with queue, frameClientFd := now } :=
  { h with
    alternates := halt
    gone := hgone
    known := fun fd hfd => by
      rcases hfd with hfd | hfd
      · exact h.known fd (Or.inr (by simp [hqueue, hnow fd hfd]))
      · exact h.known fd (Or.inr (by simp [hqueue, hfd])) }

theorem Kept.runBlock (h : Kept s) {b : Block} {queue : List Block} (hqueue : s.queue = b :: queue)
    (htidy : Tidy s .block) : Kept ({ s with queue }.runBlock b) := by
  have halt := h.alternates
  rw [hqueue] at halt
  rcases Option.eq_none_or_eq_some s.frameClientFd with hnow | ⟨now, hnow⟩
  · rw [hnow] at halt
    cases b with
    | clear fd => exact halt.elim
    | install fd =>
      have hlive : ¬s.released = true := fun hgone => htidy hgone fd (by rw [hqueue]; rfl)
      have hnone : closeFrameClient { s with queue } = { s with queue } :=
        closeFrameClient_of_none hnow
      rw [AndroidDeviceShell.runBlock, if_neg hlive, hnone]
      exact h.next hqueue halt (fun fd' hfd' => by rw [Option.some.inj hfd'])
        fun hgone => absurd hgone hlive
  · rw [hnow] at halt
    cases b with
    | install fd => exact halt.elim
    | clear fd =>
      obtain ⟨rfl, halt⟩ := halt
      have hlive : s.released = false := by
        by_contra hgone
        rw [h.gone (by simpa using hgone)] at hnow
        cases hnow
      rw [AndroidDeviceShell.runBlock, if_pos (by simp [hlive, hnow])]
      exact h.next hqueue halt nofun fun _ => rfl

theorem Kept.sendInput (h : Kept s) {written : Bool}
    (htidy : ∀ fd ∈ s.frameClientFd, written = true ∧ s.server.held = some fd) :
    Kept (s.sendInput written) := by
  rw [AndroidDeviceShell.sendInput]
  split
  · next fd hnow =>
    obtain ⟨rfl, hheld⟩ := htidy fd hnow
    have htable := (h.owner fd.number fd.client).mpr hheld
    exact { h with
      struck := by rw [h.struck, h.not_foreign hheld]; rfl
      failed := by rw [htable]; rfl }
  · exact h

/-- Other descriptors come and go beside the client's. -/
theorem Kept.other (h : Kept s) {n : ℕ} {holder : Option Holder}
    (hold : ∀ k, s.table n ≠ some (.client k)) (hnew : ∀ k, holder ≠ some (.client k)) :
    Kept { s with table := Function.update s.table n holder } :=
  { h with
    owner := fun m k => by
      rw [← h.owner m k]
      show Function.update s.table n holder m = _ ↔ _
      by_cases hm : m = n
      · subst hm
        rw [Function.update_self]
        exact iff_of_false (hnew k) (hold k)
      · rw [Function.update_of_ne hm] }

/-- **One tidy step.** -/
theorem Kept.step (h : Kept s) (htidy : Tidy s e) : Kept (s.step e) := by
  cases e with
  | accept n =>
    rw [AndroidDeviceShell.step]
    split_ifs with hcond
    · exact h.accept hcond.1 hcond.2
    · exact h
  | acceptFails =>
    rw [AndroidDeviceShell.step]
    split_ifs with hserver
    · have halt := h.alternates
      rw [hserver, ← List.append_nil s.queue] at halt
      have hdone : Kept { s with queue := s.queue ++ [], server := .done } :=
        h.proceed (by rw [hserver]; rfl) halt nofun
      rwa [List.append_nil] at hdone
    · exact h
  | postInstall =>
    rw [AndroidDeviceShell.step]
    split
    · next fd hserver =>
      have halt := h.alternates
      rw [hserver] at halt
      exact h.proceed (by rw [hserver]; rfl) halt.install fun fd' hfd' => by
        rw [hserver, Block.install.inj (List.mem_singleton.mp hfd')]
        rfl
    · exact h
  | hangUp =>
    rw [AndroidDeviceShell.step]
    split
    · next fd hserver =>
      have halt := h.alternates
      rw [hserver, ← List.append_nil s.queue] at halt
      have hclear : Kept { s with queue := s.queue ++ [], server := .clear fd } :=
        h.proceed (by rw [hserver]; rfl) halt nofun
      rwa [List.append_nil] at hclear
    · exact h
  | postClear =>
    rw [AndroidDeviceShell.step]
    split
    · next fd hserver =>
      have halt := h.alternates
      rw [hserver] at halt
      exact h.proceed (by rw [hserver]; rfl) halt.clear fun fd' hfd' =>
        nomatch List.mem_singleton.mp hfd'
    · exact h
  | closeClient =>
    rw [AndroidDeviceShell.step]
    split
    · next fd hserver => exact h.closeClient hserver
    · exact h
  | block =>
    rw [AndroidDeviceShell.step]
    split
    · next b queue _ hqueue => exact h.runBlock hqueue htidy
    · exact h
  | input written =>
    rw [AndroidDeviceShell.step, h.failed, Bool.false_or]
    split_ifs with hgone
    · exact h
    · exact h.sendInput (htidy.resolve_left hgone)
  | closeAfterInput =>
    rw [AndroidDeviceShell.step, if_neg (by simp [h.failed])]
    exact h
  | windowWillClose =>
    rw [AndroidDeviceShell.step, h.failed, Bool.false_or]
    split_ifs with hgone
    · exact h
    · rw [closeFrameClient_of_none (htidy.resolve_left hgone)]
      exact h
  | dealloc =>
    rw [AndroidDeviceShell.step, h.failed, Bool.false_or]
    split_ifs with hgone
    · exact h
    · have hnone := htidy.resolve_left hgone
      rw [closeFrameClient_of_none hnone]
      exact { h with gone := fun _ => hnone }
  | openOther n =>
    rw [AndroidDeviceShell.step]
    split_ifs with hfree
    · exact h.other (by simp [hfree]) nofun
    · exact h
  | closeOther n =>
    rw [AndroidDeviceShell.step]
    split_ifs with hother
    · exact h.other (by simp [hother]) nofun
    · exact h

/-! ## What an untidy step leads to -/

/-- The steps of the thread that are left until it closes its client. -/
def finish : ServerPc → List Event
  | .install _ => [.postInstall, .hangUp, .postClear, .closeClient]
  | .read _ => [.hangUp, .postClear, .closeClient]
  | .clear _ => [.postClear, .closeClient]
  | .close _ => [.closeClient]
  | .accept | .done => []

/-- The thread closes its client in the end. -/
theorem closes_finish (hheld : s.server.held = some fd) :
    (run step s (finish s.server)).closes fd.client = s.closes fd.client + 1 ∧
      (run step s (finish s.server)).accepted = s.accepted := by
  cases hserver : s.server with
  | accept => rw [hserver] at hheld; cases hheld
  | done => rw [hserver] at hheld; cases hheld
  | install fd' | read fd' | clear fd' | close fd' =>
    obtain rfl : fd' = fd := by
      rw [hserver] at hheld
      exact Option.some.inj hheld
    simp [finish, run, AndroidDeviceShell.step, hserver, AndroidDeviceShell.close]

/-- **A client that the main queue closes** is closed twice in the end. -/
theorem Kept.closed_twice (h : Kept s) (hknown : fd.client < s.accepted) {s' : AndroidDeviceShell}
    (hserver : s'.server = s.server) (haccepted : s'.accepted = s.accepted)
    (hcloses : s'.closes fd.client = s.closes fd.client + 1) :
    ∃ es, ¬Sound (run AndroidDeviceShell.step s' es) := by
  by_cases hheld : ∀ fd' ∈ s.server.held, fd'.client ≠ fd.client
  · -- the thread has closed it already
    have honce := h.closed fd.client hknown hheld
    refine ⟨[], fun hs => ?_⟩
    have hle := hs.once fd.client (by rw [run_nil, haccepted]; exact hknown)
    rw [run_nil, hcloses, honce] at hle
    omega
  · -- and if not, it will
    push Not at hheld
    obtain ⟨fd', hfd', he⟩ := hheld
    obtain ⟨hfinish, hsame⟩ := closes_finish (s := s') (hserver ▸ hfd')
    refine ⟨finish s'.server, fun hs => ?_⟩
    have hle := hs.once fd.client (by rw [hsame, haccepted]; exact hknown)
    rw [← he, hfinish, he, hcloses] at hle
    omega

theorem closes_closeFrameClient (hnow : s.frameClientFd = some fd) :
    s.closeFrameClient.closes fd.client = s.closes fd.client + 1 := by
  rw [closeFrameClient, hnow]
  exact Function.update_self _ _ _

theorem server_closeFrameClient : s.closeFrameClient.server = s.server := by
  rw [closeFrameClient]
  split <;> rfl

theorem accepted_closeFrameClient : s.closeFrameClient.accepted = s.accepted := by
  rw [closeFrameClient]
  split <;> rfl

/-- **An untidy step** breaks the promise, now or later. -/
theorem Kept.spoiled (h : Kept s) (hno : ¬Tidy s e) :
    ∃ es, ¬Sound (run AndroidDeviceShell.step (s.step e) es) := by
  have hclose : ∀ fd, s.frameClientFd = some fd → ∀ s' : AndroidDeviceShell,
      s'.server = s.server → s'.accepted = s.accepted → s'.closes = s.closeFrameClient.closes →
        ∃ es, ¬Sound (run AndroidDeviceShell.step s' es) := by
    intro fd hnow s' hserver haccepted hcloses
    exact h.closed_twice (h.known fd (Or.inl hnow)) hserver haccepted
      (hcloses ▸ closes_closeFrameClient hnow)
  cases e with
  | input written =>
    simp only [Tidy, not_or, not_forall] at hno
    obtain ⟨hlive, fd, hnow, hbad⟩ := hno
    have hnow : s.frameClientFd = some fd := hnow
    have hstep : s.step (.input written) = s.sendInput written := by
      rw [AndroidDeviceShell.step, h.failed, if_neg (by simpa using hlive)]
    rw [hstep]
    cases hforeign : s.foreign fd with
    | true =>
      -- the number is another's by now
      refine ⟨[], fun hs => ?_⟩
      have hstruck := hs.struck
      rw [run_nil, AndroidDeviceShell.sendInput, hnow] at hstruck
      simp [hforeign] at hstruck
    | false =>
      -- the write fails, and the close is next
      have hfailed : (s.sendInput written).failed = true := by
        rw [AndroidDeviceShell.sendInput, hnow]
        simp only [Bool.or_eq_true, Bool.not_eq_true']
        cases written with
        | false => exact Or.inl rfl
        | true =>
          refine Or.inr ?_
          have hheld : s.server.held ≠ some fd := fun hheld => hbad ⟨rfl, hheld⟩
          rw [foreign, Option.any_eq_false] at hforeign
          rw [Option.isNone_iff_eq_none, Option.eq_none_iff_forall_ne_some]
          intro holder hholder
          have hself : holder = .client fd.client := by simpa using hforeign holder hholder
          exact hheld ((h.owner _ _).mp (hself ▸ hholder))
      obtain ⟨es, hes⟩ := hclose fd hnow ((s.sendInput written).step .closeAfterInput)
        (by rw [AndroidDeviceShell.step, if_pos hfailed]
            exact server_closeFrameClient.trans (by rw [AndroidDeviceShell.sendInput, hnow]))
        (by rw [AndroidDeviceShell.step, if_pos hfailed]
            exact accepted_closeFrameClient.trans (by rw [AndroidDeviceShell.sendInput, hnow]))
        (by rw [AndroidDeviceShell.step, if_pos hfailed, AndroidDeviceShell.sendInput, hnow]
            simp [closeFrameClient, hnow, close, setFrameClientFd])
      exact ⟨.closeAfterInput :: es, hes⟩
  | windowWillClose =>
    simp only [Tidy, not_or] at hno
    obtain ⟨fd, hnow⟩ := Option.ne_none_iff_exists'.mp hno.2
    rw [AndroidDeviceShell.step, h.failed, if_neg (by simpa using hno.1)]
    exact hclose fd hnow _ server_closeFrameClient accepted_closeFrameClient rfl
  | dealloc =>
    simp only [Tidy, not_or] at hno
    obtain ⟨fd, hnow⟩ := Option.ne_none_iff_exists'.mp hno.2
    rw [AndroidDeviceShell.step, h.failed, if_neg (by simpa using hno.1)]
    exact hclose fd hnow _ server_closeFrameClient accepted_closeFrameClient rfl
  | block =>
    simp only [Tidy, not_forall, ne_eq, not_not] at hno
    obtain ⟨hgone, fd, hhead⟩ := hno
    obtain ⟨queue, hqueue⟩ := List.head?_eq_some_iff.mp hhead
    have hstep : s.step .block = close { s with queue } fd := by
      rw [AndroidDeviceShell.step, h.failed, hqueue]
      dsimp only
      rw [AndroidDeviceShell.runBlock, if_pos hgone]
    rw [hstep]
    exact h.closed_twice (h.known fd (Or.inr (by simp [hqueue]))) rfl rfl
      (Function.update_self _ _ _)
  | accept | acceptFails | postInstall | hangUp | postClear | closeClient | closeAfterInput
  | openOther | closeOther => exact absurd trivial hno

/-- **One owner.** In a tidy run every client is closed once, and no write
and no close goes to a number that stands for something else; and any step
that is not tidy can be followed by others until one of these fails. -/
theorem clients_closed_once (es : List Event) :
    (Meets step Tidy {} es → Throughout step Sound {} es) ∧
      ∀ e, Meets step Tidy {} es → ¬Tidy (run step {} es) e →
        ∃ es', ¬Sound (run step (step (run step {} es) e) es') := by
  have hkept : Meets step Tidy {} es → Throughout step Kept {} es := fun hm =>
    throughout_of_invariant (fun _ _ h he => h.step he) kept_initial hm
  exact ⟨fun hm => (hkept hm).mono fun _ h => h.sound,
    fun _ hm hno => (hkept hm).last.spoiled hno⟩

/-- A client comes, is sent input and goes, and its number is used again
before the block that clears it has run. -/
theorem clients_closed_once_session :
    Throughout step Sound {}
      [.accept 7, .postInstall, .block, .input true, .hangUp, .postClear, .closeClient,
        .openOther 7, .block] := by
  refine (clients_closed_once _).1 ⟨trivial, trivial, ?_, ?_, trivial, trivial, trivial, trivial,
    ?_, trivial⟩
  · exact fun hgone => absurd hgone (by decide)
  · refine Or.inr fun fd hfd => ?_
    obtain rfl : (⟨7, 0⟩ : ClientFd) = fd := Option.some.inj hfd
    exact ⟨rfl, rfl⟩
  · exact fun hgone => absurd hgone (by decide)

/-- **A client is closed twice.** A write of input fails, the main queue
closes, another file is opened under the number, and the thread closes
that. -/
theorem closed_under_another : ¬∀ es, Throughout step Sound {} es := by
  intro hall
  have hsound := (hall [.accept 7, .postInstall, .block, .input false, .closeAfterInput,
    .openOther 7, .hangUp, .postClear, .closeClient]).last
  exact absurd (hsound.once 0 (by decide)) (by decide)

end AndroidDeviceShell

end Frames

end Muplar
