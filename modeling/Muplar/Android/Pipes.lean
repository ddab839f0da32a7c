import Mathlib.Data.List.Nodup
import Mathlib.Logic.Function.Basic
import Mathlib.Tactic.Common
import Muplar.Common.Bytes
import Muplar.Common.Run
/-!
# The Android runtime — pipes

`pipe`, `read`, `write` and `close` of the guest are served from a list of
pipes, each a buffer with two descriptors that are never given out again,
and a looper is told when there is something to read. What goes in at one
end comes out at the other.

Descriptors are counted up in a type of 32 bits. The counter runs out, and
comes round to descriptors that are taken; this is the only thing that
goes wrong.

A call that throws for want of memory takes the process with it. The
calls here are those that return.
-/

namespace Muplar

namespace Android

/-! ## State -/

/-- `LooperRegistration`. -/
structure LooperRegistration where
  fd : ℤ
  ident : ℤ
  events : ℤ
  callback : UInt64
  data : UInt64
  delivered : Bool := false

/-- `HostPipe`. -/
structure HostPipe where
  readFd : ℤ
  writeFd : ℤ
  readOpen : Bool := true
  writeOpen : Bool := true
  buffer : Bytes := []

/-- The members of `AndroidRuntime` for pipes and the looper. -/
structure PipeTable where
  pipes : List HostPipe := []
  nextPipeFd : ℤ := 200
  looperRegs : List LooperRegistration := []
  pendingLooperCallbacks : List LooperRegistration := []

def inputQueueFd : ℤ := 91

/-- The value of `fd++` on an `int32_t` afterwards; behind the largest the
machine wraps around. -/
def nextFd (fd : ℤ) : ℤ :=
  (fd + 1).bmod (2 ^ 32)

/-- `static_cast<int32_t>` of an argument. -/
def asFd (argument : UInt64) : ℤ :=
  argument.toUInt32.toInt32.toInt

/-- The calls of the guest and the rounds of the host. A read says whether
`guest_write` succeeds, and what the host's own `read` comes to where the
descriptor is 0: bytes, or an error. A write has the bytes `guest_read`
finds, as many as were asked for, and says whether it succeeds. A poll and
a round say whether there is input for the queue. -/
inductive PipeCall
  | pipe (fdsGpa : UInt64)
  | read (fd buffer count : UInt64) (writes : Bool) (stdin : Bytes ⊕ ℕ)
  | write (fd buffer : UInt64) (bytes : Bytes) (readable : Bool)
  | close (fd : UInt64)
  | addFd (fd ident events : ℤ) (callback data : UInt64)
  | removeFd (fd : ℤ)
  | wake
  | poll (inputPending : Bool)
  | queueReady (inputPending : Bool)

/-- What a call returns: a value, with the bytes that went to the guest, or
an error number. -/
inductive PipeAnswer
  | value (n : ℕ) (copied : Bytes)
  | errno (number : ℕ)
  deriving DecidableEq

/-! ## The looper -/

def HostPipe.hasFd (pipe : HostPipe) (fd : ℤ) : Bool :=
  pipe.readFd = fd || pipe.writeFd = fd

theorem HostPipe.hasFd_of_read (pipe : HostPipe) {fd : ℤ} (h : pipe.readFd = fd) :
    pipe.hasFd fd = true := by
  rw [HostPipe.hasFd, decide_eq_true h, Bool.true_or]

namespace PipeTable

variable (t : PipeTable)

/-- `rearm_looper_fd`. -/
def rearmLooperFd (fd : ℤ) : PipeTable :=
  { t with looperRegs := t.looperRegs.map fun reg =>
      if reg.fd = fd then { reg with delivered := false } else reg }

/-- `pipe_for_fd`: the first pipe with the descriptor, and its place. -/
def pipeForFd (fd : ℤ) : Option (ℕ × HostPipe) :=
  (t.pipes.findIdx? (·.hasFd fd)).bind fun i => (t.pipes[i]?).map fun pipe => (i, pipe)

/-- `looper_fd_ready`. -/
def looperFdReady (fd : ℤ) : Bool :=
  match t.pipeForFd fd with
  | none => true
  | some (_, pipe) =>
    if fd = pipe.readFd then !pipe.buffer.isEmpty || !pipe.writeOpen else pipe.writeOpen

/-- A registration a poll would take. -/
def ready (inputPending : Bool) (reg : LooperRegistration) : Bool :=
  !reg.delivered && (reg.fd ≠ inputQueueFd || inputPending) && t.looperFdReady reg.fd

/-- A callback `queue_ready_looper_callbacks` would queue. -/
def deliverable (inputPending : Bool) (reg : LooperRegistration) : Bool :=
  reg.callback ≠ 0 && t.ready inputPending reg

/-- `queue_ready_looper_callbacks`. -/
def queueReady (inputPending : Bool) : PipeTable :=
  { t with
    looperRegs := t.looperRegs.map fun reg =>
      if t.deliverable inputPending reg then { reg with delivered := true } else reg
    pendingLooperCallbacks :=
      t.pendingLooperCallbacks ++ t.looperRegs.filter (t.deliverable inputPending) }

/-- The first registration that is ready is delivered. -/
def pollFirst (inputPending : Bool) : List LooperRegistration →
    List LooperRegistration × Option LooperRegistration
  | [] => ([], none)
  | reg :: regs =>
    if t.ready inputPending reg then ({ reg with delivered := true } :: regs, some reg)
    else (reg :: (pollFirst inputPending regs).1, (pollFirst inputPending regs).2)

/-- `ALooper_pollOnce` and `ALooper_pollAll`. -/
def poll (inputPending : Bool) : PipeTable :=
  let polled := t.pollFirst inputPending t.looperRegs
  { t with
    looperRegs := polled.1
    pendingLooperCallbacks := t.pendingLooperCallbacks ++
      polled.2.toList.filter (·.callback ≠ 0) }

/-- `ALooper_addFd`: a registration takes the place of the first one for
its descriptor. -/
def addReg (reg : LooperRegistration) : List LooperRegistration → List LooperRegistration
  | [] => [reg]
  | old :: regs => if old.fd = reg.fd then reg :: regs else old :: addReg reg regs

def addFd (fd ident events : ℤ) (callback data : UInt64) : PipeTable :=
  if fd < 0 ∨ callback = 0 ∧ ident < 0 then t
  else { t with looperRegs := addReg { fd, ident, events, callback, data } t.looperRegs }

/-- `ALooper_removeFd`. -/
def removeFd (fd : ℤ) : PipeTable :=
  { t with looperRegs := t.looperRegs.filter (·.fd ≠ fd) }

/-- `ALooper_wake`. -/
def wake : PipeTable :=
  { t with looperRegs := t.looperRegs.map fun reg => { reg with delivered := false } }

/-! ## The stubs -/

/-- `create_pipe`. -/
def createPipe (fdsGpa : UInt64) : PipeTable × PipeAnswer :=
  if fdsGpa = 0 then (t, .errno 14)
  else
    let readFd := t.nextPipeFd
    let writeFd := nextFd readFd
    ({ t with pipes := t.pipes ++ [{ readFd, writeFd }], nextPipeFd := nextFd writeFd },
      .value 0 [])

theorem createPipe_table {fdsGpa : UInt64} (h : fdsGpa ≠ 0) :
    (t.createPipe fdsGpa).1 =
      { t with pipes := t.pipes ++ [{ readFd := t.nextPipeFd, writeFd := nextFd t.nextPipeFd }]
               nextPipeFd := nextFd (nextFd t.nextPipeFd) } := by
  rw [createPipe, if_neg h]

/-- The pipe at a place, changed. -/
def setPipe (i : ℕ) (pipe : HostPipe) : PipeTable :=
  { t with pipes := t.pipes.set i pipe }

/-- `read`. -/
def read (fd buffer count : UInt64) (writes : Bool) (stdin : Bytes ⊕ ℕ) : PipeTable × PipeAnswer :=
  if asFd fd = 0 then
    if buffer = 0 ∧ count ≠ 0 then (t, .errno 14)
    else match stdin with
      | .inr number => (t, .errno number)
      | .inl bytes =>
        if bytes ≠ [] ∧ writes = false then (t, .errno 14) else (t, .value bytes.length bytes)
  else match t.pipeForFd (asFd fd) with
    | none => (t, .errno 9)
    | some (i, pipe) =>
      if asFd fd ≠ pipe.readFd ∨ pipe.readOpen = false then (t, .errno 9)
      else if buffer = 0 ∧ count ≠ 0 then (t, .errno 14)
      else
        let toCopy := min count.toNat pipe.buffer.length
        if toCopy = 0 then (t, if pipe.writeOpen then .errno 11 else .value 0 [])
        else if writes = false then (t, .errno 14)
        else
          let rest := pipe.buffer.drop toCopy
          let t := t.setPipe i { pipe with buffer := rest }
          (if rest.isEmpty then t else t.rearmLooperFd pipe.readFd,
            .value toCopy (pipe.buffer.take toCopy))

/-- `write`. -/
def write (fd buffer : UInt64) (bytes : Bytes) (readable : Bool) : PipeTable × PipeAnswer :=
  if buffer = 0 ∧ bytes ≠ [] then (t, .errno 14)
  else if bytes ≠ [] ∧ readable = false then (t, .errno 14)
  else if asFd fd = 1 ∨ asFd fd = 2 then (t, .value bytes.length [])
  else match t.pipeForFd (asFd fd) with
    | none => (t, .errno 9)
    | some (i, pipe) =>
      if asFd fd ≠ pipe.writeFd ∨ pipe.writeOpen = false then (t, .errno 9)
      else
        ((t.setPipe i { pipe with buffer := pipe.buffer ++ bytes }).rearmLooperFd pipe.readFd,
          .value bytes.length [])

/-- `close`. -/
def close (fd : UInt64) : PipeTable × PipeAnswer :=
  match t.pipeForFd (asFd fd) with
  | none => (t, .errno 9)
  | some (i, pipe) =>
    let readOpen := if asFd fd = pipe.readFd then false else pipe.readOpen
    if asFd fd = pipe.writeFd then
      ((t.setPipe i { pipe with readOpen, writeOpen := false }).rearmLooperFd pipe.readFd,
        .value 0 [])
    else (t.setPipe i { pipe with readOpen }, .value 0 [])

/-- A call, and what it returns. -/
def serve : PipeCall → PipeTable × PipeAnswer
  | .pipe fdsGpa => t.createPipe fdsGpa
  | .read fd buffer count writes stdin => t.read fd buffer count writes stdin
  | .write fd buffer bytes readable => t.write fd buffer bytes readable
  | .close fd => t.close fd
  | .addFd fd ident events callback data => (t.addFd fd ident events callback data, .value 0 [])
  | .removeFd fd => (t.removeFd fd, .value 0 [])
  | .wake => (t.wake, .value 0 [])
  | .poll inputPending => (t.poll inputPending, .value 0 [])
  | .queueReady inputPending => (t.queueReady inputPending, .value 0 [])

end PipeTable

/-! ## What the guest sees -/

/-- The runtime, and what the guest has done with its descriptors: the bytes
it has written to each with success, those it has read from each, and the
ones it has closed. -/
structure PipeLedger where
  table : PipeTable := {}
  written : ℤ → Bytes := fun _ => []
  returned : ℤ → Bytes := fun _ => []
  closed : List ℤ := []

namespace PipeLedger

variable (l : PipeLedger)

def answer (call : PipeCall) : PipeAnswer :=
  (l.table.serve call).2

def step (call : PipeCall) : PipeLedger :=
  let table := (l.table.serve call).1
  match call, l.answer call with
  | .read fd .., .value _ copied =>
    { l with table
             returned := Function.update l.returned (asFd fd) (l.returned (asFd fd) ++ copied) }
  | .write fd _ bytes _, .value .. =>
    { l with table
             written := Function.update l.written (asFd fd) (l.written (asFd fd) ++ bytes) }
  | .close fd, .value .. => { l with table, closed := asFd fd :: l.closed }
  | _, _ => { l with table }

/-- The descriptors of the pipes. -/
def fds : List ℤ :=
  l.table.pipes.flatMap fun pipe => [pipe.readFd, pipe.writeFd]

/-- **Pipes are FIFOs**: no two ends have one descriptor, and what was read
from a pipe followed by what is in it is what was written to it. -/
def Fifo : Prop :=
  l.fds.Nodup ∧
    ∀ pipe ∈ l.table.pipes, l.returned pipe.readFd ++ pipe.buffer = l.written pipe.writeFd

/-- A read of at least one byte comes to an end of file only when the other
end was closed and everything written to it was read. -/
def EofRight : PipeCall → Prop
  | .read fd buffer count writes stdin => count ≠ 0 →
    (∃ copied, l.answer (.read fd buffer count writes stdin) = .value 0 copied) →
    ∀ pipe ∈ l.table.pipes, pipe.readFd = asFd fd →
      pipe.writeFd ∈ l.closed ∧ l.returned pipe.readFd = l.written pipe.writeFd
  | _ => True

/-- If there is something in the pipe, the callbacks for its read end are
deliverable. -/
def Told (pipe : HostPipe) : Prop :=
  pipe.buffer ≠ [] → ∀ reg ∈ l.table.looperRegs, reg.fd = pipe.readFd → reg.callback ≠ 0 →
    ∀ inputPending, l.table.deliverable inputPending reg = true

/-- After a write to a pipe, and after a read of some bytes from it, the
looper has been told of what it holds. -/
def Rearms : PipeCall → Prop
  | .read fd buffer count writes stdin => ∀ n copied, n ≠ 0 →
    l.answer (.read fd buffer count writes stdin) = .value n copied →
    ∀ pipe ∈ (l.step (.read fd buffer count writes stdin)).table.pipes,
      pipe.readFd = asFd fd → (l.step (.read fd buffer count writes stdin)).Told pipe
  | .write fd buffer bytes readable => ∀ n copied,
    l.answer (.write fd buffer bytes readable) = .value n copied →
    ∀ pipe ∈ (l.step (.write fd buffer bytes readable)).table.pipes,
      pipe.writeFd = asFd fd → (l.step (.write fd buffer bytes readable)).Told pipe
  | _ => True

/-- The counter has room for the two descriptors of a pipe. -/
def Counts : PipeCall → Prop
  | .pipe fdsGpa => fdsGpa ≠ 0 → l.table.nextPipeFd + 2 < 2 ^ 31
  | _ => True

/-! ## What a call can do -/

/-- **What a call does** to the pipes and to the guest's account. -/
inductive Did (l : PipeLedger) : PipeCall → PipeLedger → Prop
  /-- nothing, the standard streams apart -/
  | quiet {call : PipeCall} {l' : PipeLedger} (pipes : l'.table.pipes = l.table.pipes)
      (next : l'.table.nextPipeFd = l.table.nextPipeFd)
      (written : ∀ fd, 200 ≤ fd → l'.written fd = l.written fd)
      (returned : ∀ fd, 200 ≤ fd → l'.returned fd = l.returned fd)
      (closed : l'.closed = l.closed) : Did l call l'
  /-- a pipe -/
  | created {fdsGpa : UInt64} (given : fdsGpa ≠ 0) :
      Did l (.pipe fdsGpa) { l with table := (l.table.createPipe fdsGpa).1 }
  /-- bytes are read -/
  | took {fd buffer count : UInt64} {writes : Bool} {stdin : Bytes ⊕ ℕ} {l' : PipeLedger} {i n : ℕ}
      {pipe : HostPipe} (at_ : l.table.pipes[i]? = some pipe) (fdRead : asFd fd = pipe.readFd)
      (pipes : l'.table.pipes = l.table.pipes.set i { pipe with buffer := pipe.buffer.drop n })
      (next : l'.table.nextPipeFd = l.table.nextPipeFd) (written : l'.written = l.written)
      (returned : l'.returned = Function.update l.returned pipe.readFd
        (l.returned pipe.readFd ++ pipe.buffer.take n))
      (closed : l'.closed = l.closed) : Did l (.read fd buffer count writes stdin) l'
  /-- bytes are written -/
  | put {fd buffer : UInt64} {bytes : Bytes} {readable : Bool} {l' : PipeLedger} {i : ℕ}
      {pipe : HostPipe} (at_ : l.table.pipes[i]? = some pipe) (fdWrite : asFd fd = pipe.writeFd)
      (pipes : l'.table.pipes = l.table.pipes.set i { pipe with buffer := pipe.buffer ++ bytes })
      (next : l'.table.nextPipeFd = l.table.nextPipeFd) (returned : l'.returned = l.returned)
      (written : l'.written = Function.update l.written pipe.writeFd
        (l.written pipe.writeFd ++ bytes))
      (closed : l'.closed = l.closed) : Did l (.write fd buffer bytes readable) l'
  /-- an end is closed -/
  | shut {fd : UInt64} {l' : PipeLedger} {i : ℕ} {pipe : HostPipe} {readOpen writeOpen : Bool}
      (at_ : l.table.pipes[i]? = some pipe)
      (pipes : l'.table.pipes = l.table.pipes.set i { pipe with readOpen, writeOpen })
      (next : l'.table.nextPipeFd = l.table.nextPipeFd) (written : l'.written = l.written)
      (returned : l'.returned = l.returned) (closed : l'.closed = asFd fd :: l.closed)
      (open_ : writeOpen = false → pipe.writeOpen = true → pipe.writeFd = asFd fd) :
      Did l (.close fd) l'

theorem at_of_pipeForFd {t : PipeTable} {fd : ℤ} {i : ℕ} {pipe : HostPipe}
    (h : t.pipeForFd fd = some (i, pipe)) : t.pipes[i]? = some pipe ∧ pipe.hasFd fd = true := by
  rw [PipeTable.pipeForFd, Option.bind_eq_some_iff] at h
  obtain ⟨j, hj, hat⟩ := h
  obtain ⟨pipe', hpipe, heq⟩ := Option.map_eq_some_iff.mp hat
  obtain ⟨rfl, rfl⟩ := Prod.mk.inj heq
  obtain ⟨hlt, hfd, -⟩ := List.findIdx?_eq_some_iff_getElem.mp hj
  rw [List.getElem?_eq_getElem hlt, Option.some_inj] at hpipe
  exact ⟨by rw [List.getElem?_eq_getElem hlt, hpipe], hpipe ▸ hfd⟩

theorem step_table (call : PipeCall) : (l.step call).table = (l.table.serve call).1 := by
  unfold step
  split <;> rfl

/-- A call that leaves the table, with an error for an answer, does
nothing. -/
theorem step_errno {call : PipeCall} {number : ℕ} {table : PipeTable}
    (h : l.table.serve call = (table, .errno number)) : l.step call = { l with table } := by
  have hanswer : l.answer call = .errno number := congrArg Prod.snd h
  unfold step
  rw [hanswer, h]
  cases call <;> rfl

theorem did_of_errno {call : PipeCall} {number : ℕ}
    (h : l.table.serve call = (l.table, .errno number)) : l.Did call (l.step call) := by
  rw [l.step_errno h]
  exact .quiet rfl rfl (fun _ _ => rfl) (fun _ _ => rfl) rfl

theorem step_read {fd buffer count : UInt64} {writes : Bool} {stdin : Bytes ⊕ ℕ}
    {table : PipeTable} {n : ℕ} {copied : Bytes}
    (h : l.table.read fd buffer count writes stdin = (table, .value n copied)) :
    l.step (.read fd buffer count writes stdin) =
      { l with table
               returned := Function.update l.returned (asFd fd)
                 (l.returned (asFd fd) ++ copied) } := by
  have hserve : l.table.serve (.read fd buffer count writes stdin) = (table, .value n copied) := h
  unfold step answer
  rw [hserve]

theorem step_write {fd buffer : UInt64} {bytes : Bytes} {readable : Bool} {table : PipeTable}
    {n : ℕ} {copied : Bytes} (h : l.table.write fd buffer bytes readable = (table, .value n copied)) :
    l.step (.write fd buffer bytes readable) =
      { l with table
               written := Function.update l.written (asFd fd)
                 (l.written (asFd fd) ++ bytes) } := by
  have hserve : l.table.serve (.write fd buffer bytes readable) = (table, .value n copied) := h
  unfold step answer
  rw [hserve]

theorem step_close {fd : UInt64} {table : PipeTable} {n : ℕ} {copied : Bytes}
    (h : l.table.close fd = (table, .value n copied)) :
    l.step (.close fd) = { l with table, closed := asFd fd :: l.closed } := by
  have hserve : l.table.serve (.close fd) = (table, .value n copied) := h
  unfold step answer
  rw [hserve]

theorem did_write (fd buffer : UInt64) (bytes : Bytes) (readable : Bool) :
    l.Did (.write fd buffer bytes readable) (l.step (.write fd buffer bytes readable)) := by
  generalize hwrite : l.table.write fd buffer bytes readable = r
  have hcall := hwrite
  unfold PipeTable.write at hcall
  split_ifs at hcall with h1 h2 h3
  · subst hcall
    exact l.did_of_errno hwrite
  · subst hcall
    exact l.did_of_errno hwrite
  · subst hcall
    -- a standard stream: its descriptor is below those of the pipes
    rw [l.step_write hwrite]
    refine .quiet rfl rfl (fun other hother => ?_) (fun _ _ => rfl) rfl
    exact Function.update_of_ne (by omega) _ _
  · cases hfind : l.table.pipeForFd (asFd fd) with
    | none =>
      rw [hfind] at hcall
      subst hcall
      exact l.did_of_errno hwrite
    | some found =>
      obtain ⟨i, pipe⟩ := found
      rw [hfind] at hcall
      dsimp only at hcall
      split_ifs at hcall with h4
      · subst hcall
        exact l.did_of_errno hwrite
      · subst hcall
        obtain ⟨hfd, -⟩ := not_or.mp h4
        have hfd := not_not.mp hfd
        rw [l.step_write hwrite]
        refine .put (at_of_pipeForFd hfind).1 hfd rfl rfl rfl ?_ rfl
        rw [← hfd]

theorem did_read (fd buffer count : UInt64) (writes : Bool) (stdin : Bytes ⊕ ℕ) :
    l.Did (.read fd buffer count writes stdin) (l.step (.read fd buffer count writes stdin)) := by
  generalize hread : l.table.read fd buffer count writes stdin = r
  have hcall := hread
  unfold PipeTable.read at hcall
  by_cases hzero : asFd fd = 0
  · rw [if_pos hzero] at hcall
    split_ifs at hcall with h1
    · subst hcall
      exact l.did_of_errno hread
    · cases stdin with
      | inr number =>
        subst hcall
        exact l.did_of_errno hread
      | inl bytes =>
        dsimp only at hcall
        split_ifs at hcall with h2
        · subst hcall
          exact l.did_of_errno hread
        · subst hcall
          -- the standard input: its descriptor is below those of the pipes
          rw [l.step_read hread]
          refine .quiet rfl rfl (fun _ _ => rfl) (fun other hother => ?_) rfl
          exact Function.update_of_ne (by omega) _ _
  · rw [if_neg hzero] at hcall
    cases hfind : l.table.pipeForFd (asFd fd) with
    | none =>
      rw [hfind] at hcall
      subst hcall
      exact l.did_of_errno hread
    | some found =>
      obtain ⟨i, pipe⟩ := found
      rw [hfind] at hcall
      dsimp only at hcall
      split_ifs at hcall with h1 h2 h3 h4 h5 h6
      · subst hcall
        exact l.did_of_errno hread
      · subst hcall
        exact l.did_of_errno hread
      · subst hcall
        exact l.did_of_errno hread
      · subst hcall
        rw [l.step_read hread, List.append_nil, Function.update_eq_self]
        exact .quiet rfl rfl (fun _ _ => rfl) (fun _ _ => rfl) rfl
      · subst hcall
        exact l.did_of_errno hread
      all_goals
        subst hcall
        have hfd := not_not.mp (not_or.mp h1).1
        rw [l.step_read hread]
        refine .took (at_of_pipeForFd hfind).1 hfd rfl rfl rfl ?_ rfl
        rw [← hfd]

theorem did_close (fd : UInt64) : l.Did (.close fd) (l.step (.close fd)) := by
  generalize hclose : l.table.close fd = r
  have hcall := hclose
  unfold PipeTable.close at hcall
  cases hfind : l.table.pipeForFd (asFd fd) with
  | none =>
    rw [hfind] at hcall
    subst hcall
    exact l.did_of_errno hclose
  | some found =>
    obtain ⟨i, pipe⟩ := found
    rw [hfind] at hcall
    dsimp only at hcall
    by_cases hwrite : asFd fd = pipe.writeFd
    · rw [if_pos hwrite] at hcall
      subst hcall
      rw [l.step_close hclose]
      exact .shut (at_of_pipeForFd hfind).1 rfl rfl rfl rfl rfl fun _ _ => hwrite.symm
    · rw [if_neg hwrite] at hcall
      subst hcall
      rw [l.step_close hclose]
      refine .shut (at_of_pipeForFd hfind).1 rfl rfl rfl rfl rfl fun hclosed hopen => ?_
      rw [hopen] at hclosed
      cases hclosed

theorem step_did (call : PipeCall) : l.Did call (l.step call) := by
  have hquiet : ∀ table : PipeTable, table.pipes = l.table.pipes →
      table.nextPipeFd = l.table.nextPipeFd → l.Did call { l with table } :=
    fun table hpipes hnext => .quiet hpipes hnext (fun _ _ => rfl) (fun _ _ => rfl) rfl
  cases call with
  | pipe fdsGpa =>
    by_cases hzero : fdsGpa = 0
    · have herrno : l.table.serve (.pipe fdsGpa) = (l.table, .errno 14) := by
        rw [PipeTable.serve, PipeTable.createPipe, if_pos hzero]
      exact l.did_of_errno herrno
    · exact .created hzero
  | read fd buffer count writes stdin => exact l.did_read fd buffer count writes stdin
  | write fd buffer bytes readable => exact l.did_write fd buffer bytes readable
  | close fd => exact l.did_close fd
  | addFd fd ident events callback data =>
    refine hquiet (l.table.addFd fd ident events callback data) ?_ ?_ <;>
      rw [PipeTable.addFd] <;> split <;> rfl
  | removeFd fd => exact hquiet _ rfl rfl
  | wake => exact hquiet _ rfl rfl
  | poll inputPending => exact hquiet _ rfl rfl
  | queueReady inputPending => exact hquiet _ rfl rfl

/-! ## The invariant -/

/-- **The invariant of the pipes.** They are numbered from 200 on, two
descriptors to a pipe, and what was written to a descriptor is there or was
read. -/
structure Sound (l : PipeLedger) : Prop where
  /-- the counter is behind the pipes -/
  next : l.table.nextPipeFd = 200 + 2 * l.table.pipes.length
  /-- and has not come to its end -/
  below : l.table.nextPipeFd < 2 ^ 31
  numbered : ∀ (i : ℕ) (pipe : HostPipe), l.table.pipes[i]? = some pipe →
    pipe.readFd = 200 + 2 * (i : ℤ) ∧ pipe.writeFd = 201 + 2 * (i : ℤ)
  conserved : ∀ (i : ℕ) (pipe : HostPipe), l.table.pipes[i]? = some pipe →
    l.returned pipe.readFd ++ pipe.buffer = l.written pipe.writeFd
  /-- nothing is known of descriptors to come -/
  fresh : ∀ fd, l.table.nextPipeFd ≤ fd → l.written fd = [] ∧ l.returned fd = []
  /-- an end that is closed was closed by the guest -/
  shut : ∀ (i : ℕ) (pipe : HostPipe), l.table.pipes[i]? = some pipe → pipe.writeOpen = false →
    pipe.writeFd ∈ l.closed

theorem nextFd_of_lt {fd : ℤ} (h : 0 ≤ fd) (hlt : fd + 1 < 2 ^ 31) : nextFd fd = fd + 1 := by
  rw [nextFd, Int.bmod_eq_of_le (by omega) (by omega)]

/-- The pipe at a place of a list with one pipe changed. -/
theorem getElem?_of_set {pipes : List HostPipe} {i j : ℕ} {new pipe : HostPipe}
    (h : (pipes.set i new)[j]? = some pipe) :
    j = i ∧ pipe = new ∨ j ≠ i ∧ pipes[j]? = some pipe := by
  rw [List.getElem?_set] at h
  split_ifs at h with heq hlt
  · exact .inl ⟨heq.symm, (Option.some_inj.mp h).symm⟩
  · exact .inr ⟨fun hne => heq hne.symm, h⟩

namespace Sound

variable {l} {call : PipeCall} {l' : PipeLedger}

theorem start : Sound {} where
  next := rfl
  below := by decide
  numbered := fun i pipe h => by rw [List.getElem?_nil] at h; cases h
  conserved := fun i pipe h => by rw [List.getElem?_nil] at h; cases h
  fresh := fun _ _ => ⟨rfl, rfl⟩
  shut := fun i pipe h => by rw [List.getElem?_nil] at h; cases h

/-- The descriptors of a pipe are below the counter. -/
theorem fd_lt (h : l.Sound) {i : ℕ} {pipe : HostPipe} (hat : l.table.pipes[i]? = some pipe) :
    pipe.readFd < l.table.nextPipeFd ∧ pipe.writeFd < l.table.nextPipeFd := by
  obtain ⟨hread, hwrite⟩ := h.numbered i pipe hat
  have hlt := (List.getElem?_eq_some_iff.mp hat).1
  have hnext := h.next
  omega

theorem created (h : l.Sound) {fdsGpa : UInt64} (hgiven : fdsGpa ≠ 0)
    (hcounts : l.Counts (.pipe fdsGpa)) :
    Sound { l with table := (l.table.createPipe fdsGpa).1 } := by
  have hroom := hcounts hgiven
  have hnext := h.next
  have hwrite : nextFd l.table.nextPipeFd = l.table.nextPipeFd + 1 :=
    nextFd_of_lt (by omega) (by omega)
  have hafter : nextFd (l.table.nextPipeFd + 1) = l.table.nextPipeFd + 2 := by
    rw [nextFd_of_lt (by omega) (by omega)]
    omega
  rw [PipeTable.createPipe_table _ hgiven, hwrite, hafter]
  -- a pipe is one of those there were, or the new one, behind them
  have hcases : ∀ {i : ℕ} {pipe : HostPipe},
      (l.table.pipes ++ [{ readFd := l.table.nextPipeFd,
                           writeFd := l.table.nextPipeFd + 1 }])[i]? = some pipe →
      l.table.pipes[i]? = some pipe ∨ i = l.table.pipes.length ∧
        pipe = { readFd := l.table.nextPipeFd, writeFd := l.table.nextPipeFd + 1 } := by
    intro i pipe hat
    rcases Nat.lt_or_ge i l.table.pipes.length with hlt | hge
    · rw [List.getElem?_append_left hlt] at hat
      exact .inl hat
    · rw [List.getElem?_append_right hge, List.getElem?_singleton] at hat
      split_ifs at hat with hzero
      exact .inr ⟨by omega, (Option.some_inj.mp hat).symm⟩
  refine ⟨?_, hroom, fun i pipe hat => ?_, fun i pipe hat => ?_, fun fd hfd => ?_,
    fun i pipe hat hclosed => ?_⟩
  · dsimp only
    rw [List.length_append, List.length_singleton]
    omega
  · rcases hcases hat with hold | ⟨hi, rfl⟩
    · exact h.numbered i pipe hold
    · dsimp only
      omega
  · rcases hcases hat with hold | ⟨hi, rfl⟩
    · exact h.conserved i pipe hold
    · dsimp only
      rw [(h.fresh _ (by omega)).2, (h.fresh _ (by omega)).1]
      rfl
  · dsimp only at hfd
    exact h.fresh fd (by omega)
  · rcases hcases hat with hold | ⟨hi, rfl⟩
    · exact h.shut i pipe hold hclosed
    · cases hclosed

/-- One pipe is changed: its descriptors stay, and the account of them is
right again. -/
theorem changed (h : l.Sound) {i : ℕ} {old new : HostPipe} (hat : l.table.pipes[i]? = some old)
    (hpipes : l'.table.pipes = l.table.pipes.set i new)
    (hnext : l'.table.nextPipeFd = l.table.nextPipeFd)
    (hfds : new.readFd = old.readFd ∧ new.writeFd = old.writeFd)
    (hreturned : ∀ fd, fd ≠ old.readFd → l'.returned fd = l.returned fd)
    (hwritten : ∀ fd, fd ≠ old.writeFd → l'.written fd = l.written fd)
    (hhere : l'.returned old.readFd ++ new.buffer = l'.written old.writeFd)
    (hclosed : ∀ fd ∈ l.closed, fd ∈ l'.closed)
    (hshut : new.writeOpen = false → old.writeFd ∈ l'.closed) : l'.Sound := by
  obtain ⟨hread, hwrite⟩ := h.numbered i old hat
  refine ⟨?_, ?_, fun j pipe hj => ?_, fun j pipe hj => ?_, fun fd hfd => ?_,
    fun j pipe hj hopen => ?_⟩
  · rw [hnext, hpipes, List.length_set, h.next]
  · rw [hnext]
    exact h.below
  · rw [hpipes] at hj
    rcases getElem?_of_set hj with ⟨rfl, rfl⟩ | ⟨-, hold⟩
    · rw [hfds.1, hfds.2]
      exact ⟨hread, hwrite⟩
    · exact h.numbered j pipe hold
  · rw [hpipes] at hj
    rcases getElem?_of_set hj with ⟨rfl, rfl⟩ | ⟨hne, hold⟩
    · rw [hfds.1, hfds.2]
      exact hhere
    · -- another pipe has other descriptors
      obtain ⟨hread', hwrite'⟩ := h.numbered j pipe hold
      rw [hreturned _ (by omega), hwritten _ (by omega)]
      exact h.conserved j pipe hold
  · obtain ⟨hltRead, hltWrite⟩ := h.fd_lt hat
    rw [hnext] at hfd
    rw [hreturned _ (by omega), hwritten _ (by omega)]
    exact h.fresh fd hfd
  · rw [hpipes] at hj
    rcases getElem?_of_set hj with ⟨rfl, rfl⟩ | ⟨-, hold⟩
    · rw [hfds.2]
      exact hshut hopen
    · exact hclosed _ (h.shut j pipe hold hopen)

/-- **The invariant is kept** by every call for which the counter has
room. -/
theorem kept (h : l.Sound) (hdid : l.Did call l') (hcounts : l.Counts call) : l'.Sound := by
  cases hdid with
  | quiet pipes next written returned closed =>
    refine ⟨?_, ?_, fun i pipe hat => ?_, fun i pipe hat => ?_, fun fd hfd => ?_,
      fun i pipe hat hopen => ?_⟩
    · rw [next, pipes, h.next]
    · rw [next]
      exact h.below
    · exact h.numbered i pipe (pipes ▸ hat)
    · rw [pipes] at hat
      obtain ⟨hread, hwrite⟩ := h.numbered i pipe hat
      rw [returned _ (by omega), written _ (by omega)]
      exact h.conserved i pipe hat
    · have hnext := h.next
      rw [next] at hfd
      rw [returned _ (by omega), written _ (by omega)]
      exact h.fresh fd hfd
    · rw [closed]
      exact h.shut i pipe (pipes ▸ hat) hopen
  | created given => exact h.created given hcounts
  | took at_ fdRead pipes next written returned closed =>
    refine h.changed at_ pipes next ⟨rfl, rfl⟩ (fun fd hne => ?_) (fun fd _ => by rw [written]) ?_
      (fun fd hmem => closed ▸ hmem) (fun hopen => closed ▸ h.shut _ _ at_ hopen)
    · rw [returned, Function.update_of_ne hne]
    · -- what was taken from the front of the buffer went to the end of what was read
      rw [returned, written, Function.update_self, List.append_assoc, List.take_append_drop]
      exact h.conserved _ _ at_
  | put at_ fdWrite pipes next returned written closed =>
    refine h.changed at_ pipes next ⟨rfl, rfl⟩ (fun fd _ => by rw [returned]) (fun fd hne => ?_) ?_
      (fun fd hmem => closed ▸ hmem) (fun hopen => closed ▸ h.shut _ _ at_ hopen)
    · rw [written, Function.update_of_ne hne]
    · rw [returned, written, Function.update_self, ← List.append_assoc, h.conserved _ _ at_]
  | @shut _ _ _ old _ _ at_ pipes next written returned closed open_ =>
    refine h.changed at_ pipes next ⟨rfl, rfl⟩ (fun fd _ => by rw [returned])
      (fun fd _ => by rw [written]) ?_ (fun fd hmem => ?_) (fun hopen => ?_)
    · rw [returned, written]
      exact h.conserved _ _ at_
    · rw [closed]
      exact List.mem_cons_of_mem _ hmem
    · -- the end was closed before, or by this call
      rw [closed]
      cases hbefore : old.writeOpen with
      | false => exact List.mem_cons_of_mem _ (h.shut _ _ at_ hbefore)
      | true => exact open_ hopen hbefore ▸ List.mem_cons_self

end Sound

/-! ## Results -/

variable {l} {call : PipeCall}

namespace Sound

/-- A pipe found by a descriptor is the only one that has it. -/
theorem pipe_unique (h : l.Sound) {i j : ℕ} {pipe pipe' : HostPipe} {fd : ℤ}
    (hi : l.table.pipes[i]? = some pipe) (hj : l.table.pipes[j]? = some pipe')
    (hfd : pipe.hasFd fd = true) (hfd' : pipe'.hasFd fd = true) : i = j := by
  obtain ⟨hread, hwrite⟩ := h.numbered i pipe hi
  obtain ⟨hread', hwrite'⟩ := h.numbered j pipe' hj
  rw [HostPipe.hasFd, Bool.or_eq_true, decide_eq_true_eq, decide_eq_true_eq] at hfd hfd'
  omega

/-- The pipe of a descriptor is found. -/
theorem pipeForFd_eq (h : l.Sound) {i : ℕ} {pipe : HostPipe} {fd : ℤ}
    (hat : l.table.pipes[i]? = some pipe) (hfd : pipe.hasFd fd = true) :
    l.table.pipeForFd fd = some (i, pipe) := by
  have hsome : (l.table.pipes.findIdx? (·.hasFd fd)).isSome := by
    rw [List.findIdx?_isSome, List.any_eq_true]
    exact ⟨pipe, List.mem_of_getElem? hat, hfd⟩
  obtain ⟨j, hj⟩ := Option.isSome_iff_exists.mp hsome
  obtain ⟨hlt, hhas, -⟩ := List.findIdx?_eq_some_iff_getElem.mp hj
  have hij : i = j := h.pipe_unique hat (List.getElem?_eq_getElem hlt) hfd hhas
  rw [PipeTable.pipeForFd, hj, Option.bind_some, ← hij, hat, Option.map_some]

theorem fds_nodup (h : l.Sound) : l.fds.Nodup := by
  rw [fds, List.nodup_flatMap]
  constructor
  · intro pipe hmem
    obtain ⟨i, hat⟩ := List.mem_iff_getElem?.mp hmem
    obtain ⟨hread, hwrite⟩ := h.numbered i pipe hat
    rw [List.nodup_cons, List.mem_singleton]
    exact ⟨by omega, List.nodup_singleton _⟩
  · rw [List.pairwise_iff_getElem]
    intro i j hi hj hlt
    obtain ⟨hread, hwrite⟩ := h.numbered i _ (List.getElem?_eq_getElem hi)
    obtain ⟨hread', hwrite'⟩ := h.numbered j _ (List.getElem?_eq_getElem hj)
    intro fd hmem hmem'
    simp only [List.mem_cons, List.not_mem_nil, or_false] at hmem hmem'
    omega

theorem fifo (h : l.Sound) : l.Fifo := by
  refine ⟨h.fds_nodup, fun pipe hmem => ?_⟩
  obtain ⟨i, hat⟩ := List.mem_iff_getElem?.mp hmem
  exact h.conserved i pipe hat

/-- An answer of 0 to a read of at least one byte. -/
theorem eofRight (h : l.Sound) (call : PipeCall) : l.EofRight call := by
  cases call with
  | read fd buffer count writes stdin =>
    rintro hcount ⟨copied, hzero⟩ pipe hmem hfd
    obtain ⟨i, hat⟩ := List.mem_iff_getElem?.mp hmem
    have hread := (h.numbered i pipe hat).1
    have hhas : pipe.hasFd (asFd fd) = true := pipe.hasFd_of_read hfd
    unfold answer PipeTable.serve at hzero
    dsimp only at hzero
    unfold PipeTable.read at hzero
    rw [if_neg (by omega), h.pipeForFd_eq hat hhas] at hzero
    dsimp only at hzero
    have hpositive : 0 < count.toNat := by
      rw [Nat.pos_iff_ne_zero, Ne, ← UInt64.toNat_zero, UInt64.toNat_inj]
      exact hcount
    split_ifs at hzero with h1 h2 h3 h4
    · -- the buffer is empty, since at least one byte is asked for, and the other end is closed
      have hempty : pipe.buffer = [] := List.length_eq_zero_iff.mp (by omega)
      refine ⟨h.shut i pipe hat (by rwa [Bool.not_eq_true] at h4), ?_⟩
      rw [← h.conserved i pipe hat, hempty, List.append_nil]
    all_goals exact absurd (PipeAnswer.value.inj hzero).1 h3
  | _ => trivial

/-- A registration for a pipe with something in it is ready once it has
been told so. -/
theorem deliverable_of_rearmed (h : l.Sound) {t : PipeTable} {i : ℕ} {pipe : HostPipe}
    (hpipes : t.pipes = l.table.pipes) (hat : l.table.pipes[i]? = some pipe)
    (hbuffer : pipe.buffer ≠ []) {reg : LooperRegistration}
    (hreg : reg ∈ (t.rearmLooperFd pipe.readFd).looperRegs) (hfd : reg.fd = pipe.readFd)
    (hcallback : reg.callback ≠ 0) (inputPending : Bool) :
    (t.rearmLooperFd pipe.readFd).deliverable inputPending reg = true := by
  have hread := (h.numbered i pipe hat).1
  have hdelivered : reg.delivered = false := by
    obtain ⟨old, -, rfl⟩ := List.mem_map.mp hreg
    by_cases hold : old.fd = pipe.readFd
    · rw [if_pos hold]
    · rw [if_neg hold] at hfd
      contradiction
  have hfind : (t.rearmLooperFd pipe.readFd).pipeForFd reg.fd = some (i, pipe) := by
    have hhas : pipe.hasFd reg.fd = true := pipe.hasFd_of_read hfd.symm
    rw [← h.pipeForFd_eq hat hhas, PipeTable.pipeForFd, PipeTable.pipeForFd,
      PipeTable.rearmLooperFd, hpipes]
  have hready : (t.rearmLooperFd pipe.readFd).looperFdReady reg.fd = true := by
    rw [PipeTable.looperFdReady, hfind]
    dsimp only
    rw [if_pos hfd, Bool.or_eq_true, Bool.not_eq_true', List.isEmpty_eq_false_iff]
    exact .inl hbuffer
  have hother : reg.fd ≠ inputQueueFd := by
    rw [inputQueueFd]
    omega
  rw [PipeTable.deliverable, PipeTable.ready, hdelivered, hready, decide_eq_true hcallback,
    decide_eq_true hother]
  rfl

/-- After a call that told the looper of a read end. -/
theorem told_of_table (h : l.Sound) {t : PipeTable} {fd : ℤ}
    (htable : l.table = t.rearmLooperFd fd) {pipe : HostPipe} (hmem : pipe ∈ l.table.pipes)
    (hfd : pipe.readFd = fd) : l.Told pipe := by
  intro hbuffer reg hreg hregFd hcallback inputPending
  obtain ⟨i, hat⟩ := List.mem_iff_getElem?.mp hmem
  subst hfd
  rw [htable] at hreg ⊢
  exact h.deliverable_of_rearmed (by rw [htable]; rfl) hat hbuffer hreg hregFd hcallback _

theorem rearms_write (h : l.Sound) {fd buffer : UInt64} {bytes : Bytes} {readable : Bool}
    (h' : (l.step (.write fd buffer bytes readable)).Sound) :
    l.Rearms (.write fd buffer bytes readable) := by
  intro n copied hanswer pipe hmem hfd
  have htable := l.step_table (.write fd buffer bytes readable)
  rw [answer] at hanswer
  unfold PipeTable.serve at hanswer htable
  dsimp only at hanswer htable
  obtain ⟨j, hat⟩ := List.mem_iff_getElem?.mp hmem
  have hnumber := h'.numbered j pipe hat
  unfold PipeTable.write at hanswer htable
  split_ifs at hanswer htable with h1 h2 h3
  · -- no pipe has the descriptor of a standard stream
    omega
  · cases hfind : l.table.pipeForFd (asFd fd) with
    | none => rw [hfind] at hanswer; cases hanswer
    | some found =>
      obtain ⟨i, old⟩ := found
      rw [hfind] at hanswer htable
      dsimp only at hanswer htable
      split_ifs at hanswer htable with h4
      obtain ⟨hfdOld, -⟩ := not_or.mp h4
      have hnumberOld := h.numbered i old (at_of_pipeForFd hfind).1
      exact h'.told_of_table htable hmem (by omega)

theorem rearms_read (h : l.Sound) {fd buffer count : UInt64} {writes : Bool} {stdin : Bytes ⊕ ℕ}
    (h' : (l.step (.read fd buffer count writes stdin)).Sound) :
    l.Rearms (.read fd buffer count writes stdin) := by
  intro n copied hsome hanswer pipe hmem hfd
  have htable := l.step_table (.read fd buffer count writes stdin)
  rw [answer] at hanswer
  unfold PipeTable.serve at hanswer htable
  dsimp only at hanswer htable
  obtain ⟨j, hat⟩ := List.mem_iff_getElem?.mp hmem
  have hnumber := h'.numbered j pipe hat
  unfold PipeTable.read at hanswer htable
  -- no pipe has the descriptor of the standard input
  rw [if_neg (by omega)] at hanswer htable
  cases hfind : l.table.pipeForFd (asFd fd) with
  | none => rw [hfind] at hanswer; cases hanswer
  | some found =>
    obtain ⟨i, old⟩ := found
    have hatOld := (at_of_pipeForFd hfind).1
    have hnumberOld := h.numbered i old hatOld
    rw [hfind] at hanswer htable
    dsimp only at hanswer htable
    split_ifs at hanswer htable with h1 h2 h3 h4 h5 h6
    · -- nothing was copied
      exact absurd (PipeAnswer.value.inj hanswer).1.symm hsome
    · -- nothing is left
      have hpipes : (l.step (.read fd buffer count writes stdin)).table.pipes =
          l.table.pipes.set i
            { old with buffer := old.buffer.drop (min count.toNat old.buffer.length) } := by
        rw [htable]
        rfl
      rw [hpipes] at hat
      rcases getElem?_of_set hat with ⟨rfl, rfl⟩ | ⟨hne, -⟩
      · intro hbuffer
        exact absurd (List.isEmpty_iff.mp h6) hbuffer
      · omega
    · exact h'.told_of_table htable hmem (by omega)

end Sound

theorem rearms (h : l.Sound) (h' : (l.step call).Sound) : l.Rearms call := by
  cases call with
  | read fd buffer count writes stdin => exact h.rearms_read h'
  | write fd buffer bytes readable => exact h.rearms_write h'
  | _ => trivial

theorem sound_step (h : l.Sound) (hcounts : l.Counts call) : (l.step call).Sound :=
  h.kept (l.step_did call) hcounts

/-- **Guest pipes are FIFOs**, in every run in which the counter of
descriptors does not run out: what was read and what is buffered is what
was written, no two ends have one descriptor, an end of file is one, and no
wake-up is lost. -/
theorem pipes_fifo (calls : List PipeCall) (h : Machine.Meets step Counts {} calls) :
    Machine.Throughout step Fifo {} calls ∧
      Machine.Meets step (fun l call => l.EofRight call ∧ l.Rearms call) {} calls := by
  have hkept : ∀ (l : PipeLedger) (call : PipeCall), l.Sound → l.Counts call →
      (l.step call).Sound := fun l call hl hcounts => sound_step hl hcounts
  constructor
  · exact (Machine.throughout_of_invariant hkept Sound.start h).mono fun l hl => hl.fifo
  · exact Machine.meets_of_invariant hkept
      (fun l call hl hcounts => ⟨hl.eofRight call, rearms hl (hkept l call hl hcounts)⟩)
      Sound.start h

/-- Two pipes, one of them read to its end in pieces. -/
theorem pipes_fifo_pair :
    Machine.Throughout step Fifo {}
        [.pipe 64, .addFd 200 1 1 8 0, .write 201 32 [1, 2, 3] true, .queueReady false,
          .read 200 96 2 true (.inl []), .pipe 72, .close 201, .read 200 96 2 true (.inl []),
          .read 200 96 2 true (.inl [])] ∧
      Machine.Meets step (fun l call => l.EofRight call ∧ l.Rearms call) {}
        [.pipe 64, .addFd 200 1 1 8 0, .write 201 32 [1, 2, 3] true, .queueReady false,
          .read 200 96 2 true (.inl []), .pipe 72, .close 201, .read 200 96 2 true (.inl []),
          .read 200 96 2 true (.inl [])] :=
  pipes_fifo _ ⟨fun _ => by decide, trivial, trivial, trivial, trivial,
    fun _ => by decide +kernel, trivial, trivial, trivial, trivial⟩

/-! ## When the counter comes round -/

/-- The pipe of a place, whatever the place. -/
def pipeAt (i : ℕ) : HostPipe where
  readFd := (200 + 2 * (i : ℤ)).bmod (2 ^ 32)
  writeFd := (201 + 2 * (i : ℤ)).bmod (2 ^ 32)

theorem nextFd_bmod (fd : ℤ) : nextFd (fd.bmod (2 ^ 32)) = (fd + 1).bmod (2 ^ 32) := by
  rw [nextFd, Int.bmod_add_bmod]

/-- What pipes there are after so many calls of `pipe` alone. -/
theorem run_pipes (n : ℕ) :
    (Machine.run step {} (List.replicate n (.pipe 1))).table =
      { pipes := (List.range n).map pipeAt, nextPipeFd := (200 + 2 * (n : ℤ)).bmod (2 ^ 32) } := by
  induction n with
  | zero =>
    have hstart : (200 + 2 * ((0 : ℕ) : ℤ)).bmod (2 ^ 32) = 200 := by decide
    rw [hstart]
    rfl
  | succ n ih =>
    have hwrite : (200 + 2 * (n : ℤ)) + 1 = 201 + 2 * (n : ℤ) := by omega
    have hnext : (201 + 2 * (n : ℤ)) + 1 = 200 + 2 * ((n + 1 : ℕ) : ℤ) := by omega
    rw [List.replicate_succ', Machine.run_concat, step_table, PipeTable.serve,
      PipeTable.createPipe_table _ (by decide), ih, nextFd_bmod, hwrite, nextFd_bmod, hnext,
      List.range_succ, List.map_append, List.map_singleton]
    dsimp only [pipeAt]

theorem not_nodup_of_alias {n i j : ℕ} (hij : i < j) (hj : j < n)
    (h : (pipeAt i).readFd = (pipeAt j).readFd) :
    ¬ (Machine.run step {} (List.replicate n (.pipe 1))).fds.Nodup := by
  intro hfds
  rw [fds, run_pipes, List.nodup_flatMap] at hfds
  dsimp only at hfds
  have hlength : ((List.range n).map pipeAt).length = n := by
    rw [List.length_map, List.length_range]
  have hpairs := List.pairwise_iff_getElem.mp hfds.2 i j (by omega) (by omega) hij
  rw [List.getElem_map, List.getElem_map, List.getElem_range, List.getElem_range] at hpairs
  refine hpairs (a := (pipeAt i).readFd) List.mem_cons_self ?_
  rw [h]
  exact List.mem_cons_self

/-- **The counter comes round**: the pipe that is created after 2 ^ 31
others has the descriptors of the first. -/
theorem pipes_alias :
    ¬ Machine.Throughout step Fifo {} (List.replicate (2 ^ 31 + 1) (.pipe 1)) := by
  intro hall
  have hread : (pipeAt 0).readFd = (pipeAt (2 ^ 31)).readFd := by decide
  exact not_nodup_of_alias (by decide) (Nat.lt_succ_self _) hread hall.last.1

end PipeLedger

end Android

end Muplar
