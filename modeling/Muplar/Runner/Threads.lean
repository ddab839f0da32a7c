import Mathlib.Data.Fin.Basic
import Mathlib.Logic.Function.Basic
import Muplar.Common.Text
/-!
# The guest runner — threads and callbacks on one vCPU

The guest has one virtual CPU. A thread of the guest is run by saving the
registers of whoever has it, putting those of the thread in their place,
and putting the saved ones back when the thread yields or returns; a
callback is called the same way, inside a trap of the code that it
interrupts. Both go by a list of registers. The vector registers and the
thread pointer are on neither list, so what nested code does to these is
seen by the code that was interrupted (`nested_calls_transparent`).
-/

namespace Muplar

namespace Runner

/-! ## The vCPU -/

/-- The registers of the vCPU that the guest's code computes with. -/
structure Vcpu where
  x : Fin 31 → UInt64
  pc : UInt64
  fpcr : UInt64
  fpsr : UInt64
  cpsr : UInt64
  spEl0 : UInt64
  spEl1 : UInt64
  spsrEl1 : UInt64
  sctlrEl1 : UInt64
  tpidrEl0 : UInt64
  v : Fin 32 → BitVec 128

/-- `VcpuContext`; `x` 29 and 30 are the frame pointer and the link
register. -/
structure VcpuContext where
  x : Fin 31 → UInt64
  pc : UInt64
  fpcr : UInt64
  fpsr : UInt64
  cpsr : UInt64
  spEl0 : UInt64
  spEl1 : UInt64
  spsrEl1 : UInt64

/-- `save_context`. -/
def saveContext (vcpu : Vcpu) : VcpuContext where
  x := vcpu.x
  pc := vcpu.pc
  fpcr := vcpu.fpcr
  fpsr := vcpu.fpsr
  cpsr := vcpu.cpsr
  spEl0 := vcpu.spEl0
  spEl1 := vcpu.spEl1
  spsrEl1 := vcpu.spsrEl1

/-- `restore_context`. -/
def restoreContext (ctx : VcpuContext) (vcpu : Vcpu) : Vcpu :=
  { vcpu with
    x := ctx.x
    pc := ctx.pc
    fpcr := ctx.fpcr
    fpsr := ctx.fpsr
    cpsr := ctx.cpsr
    spEl0 := ctx.spEl0
    spEl1 := ctx.spEl1
    spsrEl1 := ctx.spsrEl1 }

/-! ## Threads -/

/-- `ManagedGuestThread`. -/
structure ManagedGuestThread where
  handle : UInt64
  startRoutine : UInt64
  arg : UInt64
  stackTop : UInt64
  started : Bool
  yielded : Bool
  finished : Bool
  ctx : VcpuContext

/-- What the host keeps of a run: whether a thread may yield and whether
it did, what came back at the sentinel, and the threads that returned,
the last one first. -/
structure Host where
  yieldEnabled : Bool
  yielded : Bool
  onloadReturned : Bool
  onloadRetval : UInt64
  pthreadReturns : List (UInt64 × UInt64)

/-- The runner, between two traps of the guest. -/
structure State where
  vcpu : Vcpu
  host : Host
  threads : ℕ → ManagedGuestThread

/-- The first context of a thread is that of its caller, but for the
argument, the stack and where it returns to. -/
def ManagedGuestThread.firstContext (thread : ManagedGuestThread) (sentinel : UInt64)
    (caller : VcpuContext) : VcpuContext :=
  { caller with
    x := fun i =>
      if i = 0 then thread.arg else if i < 8 then 0 else if i = 30 then sentinel else caller.x i
    pc := thread.startRoutine
    spEl0 := if thread.stackTop = 0 then caller.spEl0 else thread.stackTop
    spEl1 := if thread.stackTop = 0 then caller.spEl1 else thread.stackTop }

section Calls

variable (sentinel : UInt64)

/-- `run_managed_thread`, up to where the thread has the vCPU. -/
def enterThread (i : ℕ) (s : State) : State :=
  let thread := s.threads i
  let ctx := if thread.started then thread.ctx
    else thread.firstContext sentinel (saveContext s.vcpu)
  { vcpu := restoreContext ctx s.vcpu
    host := { s.host with yieldEnabled := true }
    threads := Function.update s.threads i { thread with ctx, started := true, yielded := false } }

/-- `run_managed_thread`, from where the thread gives the vCPU back. -/
def leaveThread (i : ℕ) (caller : VcpuContext) (s : State) : State :=
  let thread := s.threads i
  let host := { s.host with yieldEnabled := false, yielded := false }
  if s.host.yielded then
    let ctx := saveContext s.vcpu
    { vcpu := restoreContext caller s.vcpu
      host
      threads := Function.update s.threads i
        { thread with ctx := { ctx with pc := ctx.pc + 4 }, yielded := true } }
  else
    { vcpu := restoreContext caller s.vcpu
      host := { host with
        pthreadReturns := (thread.handle, s.host.onloadRetval) :: s.host.pthreadReturns }
      threads := Function.update s.threads i { thread with finished := true } }

/-- The thread has something to run. -/
def ManagedGuestThread.runnable (thread : ManagedGuestThread) : Bool :=
  !thread.finished && thread.startRoutine ≠ 0

/-- `run_managed_thread`, where `run` is what the vCPU does until the
thread yields or returns. -/
def runManagedThread (i : ℕ) (run : State → State) (s : State) : Bool × State :=
  if (s.threads i).runnable then
    (true, leaveThread i (saveContext s.vcpu) (run (enterThread sentinel i s)))
  else (false, s)

/-- `call_guest_function`, up to where the function has the vCPU. -/
def enterFunction (fn : UInt64) (args : List UInt64) (s : State) : State :=
  let callSp := if s.vcpu.spEl1 ≠ 0 ∧ s.vcpu.spEl1 < 0x100000000 then s.vcpu.spEl1
    else s.vcpu.spEl0
  { s with
    vcpu := { s.vcpu with
      x := fun i => if i < 8 then args.getD i 0 else if i = 30 then sentinel else s.vcpu.x i
      pc := fn
      spEl1 := if callSp = 0 then s.vcpu.spEl1 else callSp
      sctlrEl1 := s.vcpu.sctlrEl1 ||| 64 }
    host := { s.host with onloadReturned := false, onloadRetval := 0 } }

/-- `call_guest_function`, from where the function gives the vCPU back. -/
def leaveFunction (caller : Vcpu) (s : State) : State :=
  { s with vcpu := { restoreContext (saveContext caller) s.vcpu with sctlrEl1 := caller.sctlrEl1 } }

/-- `call_guest_function`. -/
def callGuestFunction (fn : UInt64) (args : List UInt64) (run : State → State) (s : State) :
    UInt64 × State :=
  let s' := run (enterFunction sentinel fn args s)
  (s'.host.onloadRetval, leaveFunction s.vcpu s')

end Calls

/-! ## Nested code -/

/-- What the vCPU does: instructions of the guest, with the traps that
call nothing, and in between threads and callbacks that are run to where
they give the vCPU back. -/
inductive Code
  | done
  | guest (f : Vcpu × Host → Vcpu × Host) (rest : Code)
  | managed (thread : ℕ) (body rest : Code)
  | callback (fn : UInt64) (args : List UInt64) (body rest : Code)

/-- The vCPU at the four moments of a nested call. -/
structure Call where
  before : Vcpu
  entry : Vcpu
  leaving : Vcpu
  after : Vcpu

def State.guest (s : State) (f : Vcpu × Host → Vcpu × Host) : State :=
  { s with vcpu := (f (s.vcpu, s.host)).1, host := (f (s.vcpu, s.host)).2 }

namespace Code

variable (sentinel : UInt64)

def exec : Code → State → State
  | done, s => s
  | guest f rest, s => rest.exec (s.guest f)
  | managed i body rest, s => rest.exec (runManagedThread sentinel i body.exec s).2
  | callback fn args body rest, s => rest.exec (callGuestFunction sentinel fn args body.exec s).2

/-- All nested calls of a run, at any depth. -/
def calls : Code → State → List Call
  | done, _ => []
  | guest f rest, s => rest.calls (s.guest f)
  | managed i body rest, s =>
    let entered := enterThread sentinel i s
    let after := (runManagedThread sentinel i (body.exec sentinel) s).2
    (if (s.threads i).runnable then
      ⟨s.vcpu, entered.vcpu, (body.exec sentinel entered).vcpu, after.vcpu⟩ :: body.calls entered
      else []) ++ rest.calls after
  | callback fn args body rest, s =>
    let entered := enterFunction sentinel fn args s
    let after := (callGuestFunction sentinel fn args (body.exec sentinel) s).2
    ⟨s.vcpu, entered.vcpu, (body.exec sentinel entered).vcpu, after.vcpu⟩ :: body.calls entered ++
      rest.calls after

/-- The code does not run a thread, at any depth. -/
def Spares (i : ℕ) : Code → Prop
  | done => True
  | guest _ rest => rest.Spares i
  | managed j body rest => j ≠ i ∧ body.Spares i ∧ rest.Spares i
  | callback _ _ body rest => body.Spares i ∧ rest.Spares i

end Code

/-! ## What a call has to keep -/

/-- The part that is on no list: the low halves of `v8` to `v15`, and the
thread pointer. -/
structure KeepsUnsaved (a b : Vcpu) : Prop where
  vectors : ∀ i : Fin 32, 8 ≤ i → i ≤ 15 → (b.v i).setWidth 64 = (a.v i).setWidth 64
  threadPointer : b.tpidrEl0 = a.tpidrEl0

/-- **Transparent.** The registers that a call has to preserve, and the
thread pointer, are as they were. -/
structure Transparent (a b : Vcpu) : Prop extends KeepsUnsaved a b where
  general : ∀ i : Fin 31, 19 ≤ i → b.x i = a.x i
  stackPointer : b.spEl0 = a.spEl0 ∧ b.spEl1 = a.spEl1

variable {sentinel : UInt64} {s : State}

theorem keepsUnsaved_congr {a b a' b' : Vcpu} (hv : a'.v = a.v) (htp : a'.tpidrEl0 = a.tpidrEl0)
    (hv' : b'.v = b.v) (htp' : b'.tpidrEl0 = b.tpidrEl0) : KeepsUnsaved a' b' ↔ KeepsUnsaved a b := by
  constructor
  · intro h
    exact ⟨by rw [← hv, ← hv']; exact h.vectors, by rw [← htp, ← htp']; exact h.threadPointer⟩
  · intro h
    exact ⟨by rw [hv, hv']; exact h.vectors, by rw [htp, htp']; exact h.threadPointer⟩

/-- A vCPU with the registers of the list from one, and the others from
another, is transparent to the one just where the other kept its. -/
theorem transparent_of_saved {before leaving after : Vcpu} (hx : after.x = before.x)
    (hsp : after.spEl0 = before.spEl0 ∧ after.spEl1 = before.spEl1) (hv : after.v = leaving.v)
    (htp : after.tpidrEl0 = leaving.tpidrEl0) :
    Transparent before after ↔ KeepsUnsaved before leaving := by
  rw [← keepsUnsaved_congr rfl rfl hv htp]
  constructor
  · intro h
    exact h.toKeepsUnsaved
  · intro h
    exact ⟨h, fun i _ => congrFun hx i, hsp⟩

/-! ## One call -/

/-- What a thread leaves is the caller's, but for what is on no list. -/
theorem leaveThread_vcpu (i : ℕ) (caller : VcpuContext) :
    (leaveThread i caller s).vcpu = restoreContext caller s.vcpu := by
  unfold leaveThread
  simp only
  split <;> rfl

/-- A thread: `t` is where its code gives the vCPU back. -/
theorem managed_transparent (i : ℕ) (s t : State) :
    Transparent s.vcpu (leaveThread i (saveContext s.vcpu) t).vcpu ↔
      KeepsUnsaved (enterThread sentinel i s).vcpu t.vcpu := by
  have hunsaved : KeepsUnsaved (enterThread sentinel i s).vcpu t.vcpu ↔ KeepsUnsaved s.vcpu t.vcpu :=
    keepsUnsaved_congr rfl rfl rfl rfl
  rw [leaveThread_vcpu, hunsaved]
  exact transparent_of_saved rfl ⟨rfl, rfl⟩ rfl rfl

/-- A callback, likewise. -/
theorem callback_transparent (fn : UInt64) (args : List UInt64) (s t : State) :
    Transparent s.vcpu (leaveFunction s.vcpu t).vcpu ↔
      KeepsUnsaved (enterFunction sentinel fn args s).vcpu t.vcpu := by
  have hunsaved : KeepsUnsaved (enterFunction sentinel fn args s).vcpu t.vcpu ↔
      KeepsUnsaved s.vcpu t.vcpu := keepsUnsaved_congr rfl rfl rfl rfl
  rw [hunsaved]
  exact transparent_of_saved rfl ⟨rfl, rfl⟩ rfl rfl

/-! ## All calls -/

/-- What a thread's record is, where nothing ran it. -/
theorem threads_exec_of_spares {code : Code} {i : ℕ} (h : code.Spares i) :
    (code.exec sentinel s).threads i = s.threads i := by
  induction code generalizing s with
  | done => rfl
  | guest f rest ih => exact ih h
  | managed j body rest ihbody ihrest =>
    obtain ⟨hne, hbody, hrest⟩ := h
    rw [Code.exec, ihrest hrest, runManagedThread]
    split
    · have hentered : ((body.exec sentinel) (enterThread sentinel j s)).threads i = s.threads i := by
        rw [ihbody hbody]
        exact Function.update_of_ne hne.symm _ _
      rw [← hentered]
      unfold leaveThread
      simp only
      split <;> exact Function.update_of_ne hne.symm _ _
    · rfl
  | callback fn args body rest ihbody ihrest =>
    rw [Code.exec, ihrest h.2]
    exact ihbody h.1

/-- Every nested call of a run is transparent just where the code it ran
kept what is on no list. -/
theorem calls_transparent (code : Code) (s : State) :
    ∀ c ∈ code.calls sentinel s, Transparent c.before c.after ↔ KeepsUnsaved c.entry c.leaving := by
  induction code generalizing s with
  | done => intro c hc; cases hc
  | guest f rest ih => exact ih _
  | managed i body rest ihbody ihrest =>
    intro c hc
    rw [Code.calls] at hc
    rcases List.mem_append.mp hc with hc | hc
    · by_cases hrun : (s.threads i).runnable = true
      · rw [if_pos hrun] at hc
        rcases List.mem_cons.mp hc with rfl | hc
        · simp only [runManagedThread, if_pos hrun]
          exact managed_transparent i s _
        · exact ihbody _ c hc
      · rw [if_neg hrun] at hc
        cases hc
    · exact ihrest _ c hc
  | callback fn args body rest ihbody ihrest =>
    intro c hc
    rw [Code.calls] at hc
    rcases List.mem_cons.mp hc with rfl | hc
    · exact callback_transparent fn args s _
    rcases List.mem_append.mp hc with hc | hc
    · exact ihbody _ c hc
    · exact ihrest _ c hc

/-- A thread that yielded goes on with its own registers. -/
theorem resumed_transparent {i : ℕ} {caller : VcpuContext} {between : Code}
    (hstarted : (s.threads i).started = true) (hyielded : s.host.yielded = true)
    (hspares : between.Spares i) :
    let later := between.exec sentinel (leaveThread i caller s)
    Transparent s.vcpu (enterThread sentinel i later).vcpu ↔ KeepsUnsaved s.vcpu later.vcpu := by
  intro later
  have hthread : later.threads i = (leaveThread i caller s).threads i := threads_exec_of_spares hspares
  have hsaved : (leaveThread i caller s).threads i =
      { s.threads i with
        ctx := { saveContext s.vcpu with pc := s.vcpu.pc + 4 }, yielded := true } := by
    simp only [leaveThread, hyielded, if_true]
    exact Function.update_self _ _ _
  have hvcpu : (enterThread sentinel i later).vcpu =
      restoreContext { saveContext s.vcpu with pc := s.vcpu.pc + 4 } later.vcpu := by
    simp only [enterThread, hthread, hsaved, hstarted, if_true]
  rw [hvcpu]
  exact transparent_of_saved rfl ⟨rfl, rfl⟩ rfl rfl

/-- **Nested calls.** However threads and callbacks are nested, one that
gives the vCPU back has been transparent just where the code it ran kept
the vector registers and the thread pointer; a thread that goes on after
a yield finds its registers just where everybody else did; and a thread
with nothing to run changes nothing. -/
theorem nested_calls_transparent (sentinel : UInt64) (code : Code) (s : State) :
    (∀ c ∈ code.calls sentinel s,
      Transparent c.before c.after ↔ KeepsUnsaved c.entry c.leaving) ∧
    (∀ i run, (s.threads i).runnable = false → runManagedThread sentinel i run s = (false, s)) ∧
    ∀ i caller (between : Code), (s.threads i).started = true → s.host.yielded = true →
      between.Spares i →
      let later := between.exec sentinel (leaveThread i caller s)
      (Transparent s.vcpu (enterThread sentinel i later).vcpu ↔ KeepsUnsaved s.vcpu later.vcpu) := by
  refine ⟨calls_transparent code s, fun i run hidle => ?_, fun i caller between hstarted hyielded
    hspares => resumed_transparent hstarted hyielded hspares⟩
  rw [runManagedThread, if_neg (by rw [hidle]; exact Bool.false_ne_true)]

/-! ## A thread that yields -/

/-- A vCPU with one value in every register. -/
def Vcpu.filled (n : UInt64) : Vcpu :=
  ⟨fun _ => n, n, n, n, n, n, n, n, n, n, fun _ => n.toBitVec.setWidth 128⟩

/-- A runner with one thread to start. -/
def oneThread : State where
  vcpu := .filled 0x1000
  host := ⟨false, false, false, 0, []⟩
  threads _ := ⟨1, 0x400000, 7, 0x80000, false, false, false, saveContext (.filled 0)⟩

/-- The thread has a number in `d8`, and waits for events: it yields. -/
def waiting : Code :=
  .guest (fun (vcpu, host) =>
    ({ vcpu with v := Function.update vcpu.v 8 0x3ff0000000000000 }, { host with yielded := true }))
    .done

/-- **The caller loses `d8`.** -/
theorem yielding_thread_clobbers :
    ¬∀ c ∈ (Code.managed 0 waiting .done).calls 0x500000 oneThread, Transparent c.before c.after := by
  intro h
  have hvectors := (h _ List.mem_cons_self).vectors 8 (by decide) (by decide)
  exact absurd hvectors (by decide)

theorem nested_calls_transparent_waiting :
    let s := waiting.exec 0x500000 (enterThread 0x500000 0 oneThread)
    let later := Code.done.exec 0x500000 (leaveThread 0 (saveContext oneThread.vcpu) s)
    Transparent s.vcpu (enterThread 0x500000 0 later).vcpu ↔ KeepsUnsaved s.vcpu later.vcpu :=
  (nested_calls_transparent 0x500000 .done (waiting.exec 0x500000 (enterThread 0x500000 0 oneThread))).2.2
    0 (saveContext oneThread.vcpu) .done rfl rfl trivial

end Runner

end Muplar
