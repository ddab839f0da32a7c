import Mathlib.Logic.Function.Basic
import Muplar.Daemon.Turn
/-!
# muplard — runs, and what happened in them

The daemon forgets: a descriptor does not say whose it was a moment ago,
and an answered transaction leaves no trace. A `World` is a daemon with
the record an observer keeps beside it. Connections are numbered as they
are accepted; the record says which connection a descriptor stands for,
which one put each service entry in place, and what became of every
request that was forwarded. The daemon's variables never depend on the
record.
-/

namespace Muplar

namespace Daemon

variable {σ : Type}

/-! ## The record -/

/-- An answer as it was sent: the connection it reached, if the
descriptor was open, and what it carried. -/
structure Answer where
  conn : Option ℕ
  requestId : UInt64
  payload : Bytes

/-- A `BinderTransact` request that was forwarded: who sent it and under
which request id, who had registered the service, the transaction id it
went out with, and the answers sent for it. -/
structure Forward where
  tid : UInt64
  caller : ℕ
  owner : ℕ
  requestId : UInt64
  answers : List Answer := []

/-- A message the loop accepted. -/
structure Receipt where
  conn : ℕ
  header : Header
  payload : Bytes

/-- The latest request forwarded as `tid`, in a list that has the latest
first. -/
def newest (fs : List Forward) (tid : UInt64) : Option Forward :=
  fs.find? fun f => f.tid = tid

/-- An answer to `tid` counts for the latest request forwarded as
`tid`. -/
def attach (tid : UInt64) (a : Answer) : List Forward → List Forward
  | [] => []
  | f :: fs => if f.tid = tid then { f with answers := a :: f.answers } :: fs
      else f :: attach tid a fs

/-- The daemon and the record beside it. -/
structure World (σ : Type) where
  daemon : State σ
  /-- the connection a descriptor was last given to -/
  connOf : ℤ → ℕ
  /-- connections accepted so far, and the number of the next -/
  accepted : ℕ
  /-- the connection whose turn last changed a name's entry -/
  registrant : Bytes → ℕ
  receipts : List Receipt
  removed : List ℕ
  /-- the latest first -/
  forwards : List Forward

/-- The connection a message to `fd` reaches. -/
def World.reached (w : World σ) (fd : ℤ) : Option ℕ :=
  if fd ∈ w.daemon.fds then some (w.connOf fd) else none

/-- Connection `n` is open. -/
def World.Connected (w : World σ) (n : ℕ) : Prop :=
  ∃ fd ∈ w.daemon.fds, w.connOf fd = n

/-- The record of one message sent in the turn of connection `me`, served
with request `h` and `payload`. -/
def World.note (w : World σ) (me : ℕ) (h : Header) (payload : Bytes) (fs : List Forward)
    (m : Message) : List Forward :=
  match m.answers with
  | some tid => attach tid ⟨w.reached m.fd, m.requestId, m.payload⟩ fs
  | none =>
    if m.opcode = .binderIncoming then
      { tid := m.requestId, caller := me, requestId := h.requestId
        owner := w.registrant (payload.takeWhile (· ≠ newline)) } :: fs
    else fs

/-! ## Steps -/

/-- A client is accepted on `fd`. -/
def World.accept (w : World σ) (fd : ℤ) (info : ClientInfo) : World σ :=
  { w with
    daemon := Daemon.accept w.daemon fd info
    connOf := Function.update w.connOf fd w.accepted
    accepted := w.accepted + 1 }

/-- The record of a turn of client `c` that came to `r`. -/
def World.record (w : World σ) (c : Client) (poll : Poll) (r : State σ × List Message) : World σ :=
  let me := w.connOf c.fd
  let request := poll.request.getD (⟨0, 0, 0, 0, 0⟩, [])
  { w with
    daemon := r.1
    registrant := fun name =>
      if r.1.services.lookup name = w.daemon.services.lookup name then w.registrant name else me
    receipts := match poll.request with
      | some (h, payload) => ⟨me, h, payload⟩ :: w.receipts
      | none => w.receipts
    removed := if c.fd ∈ r.1.fds then w.removed else me :: w.removed
    forwards := r.2.foldl (w.note me request.1 request.2) w.forwards }

/-- The client at index `i` has its turn. -/
def World.serve (desk : Desk σ) (w : World σ) (i : ℕ) (c : Client) (poll : Poll) : World σ :=
  w.record c poll (serveClient desk w.daemon i c poll)

/-- The stamp of the package registry is looked at. -/
def World.announce (desk : Desk σ) (w : World σ) : World σ :=
  { w with daemon := (Daemon.announce desk w.daemon).1 }

/-- One step of the loop: a connection on a descriptor not in use, one
client's turn, or the end of a cycle. -/
inductive Step (desk : Desk σ) : World σ → World σ → Prop
  | accept {w : World σ} (fd : ℤ) (info : ClientInfo) : 0 ≤ fd → fd ∉ w.daemon.fds →
      Step desk w (w.accept fd info)
  | serve {w : World σ} (i : ℕ) (c : Client) (poll : Poll) : w.daemon.clients[i]? = some c →
      Step desk w (w.serve desk i c poll)
  | announce {w : World σ} : Step desk w (w.announce desk)

/-- The loop as `main` enters it. -/
def World.start (rest : σ) : World σ where
  daemon := State.start rest
  connOf := fun _ => 0
  accepted := 0
  registrant := fun _ => 0
  receipts := []
  removed := []
  forwards := []

/-- A world some run of the loop gets to. -/
inductive Reachable (desk : Desk σ) (rest : σ) : World σ → Prop
  | start : Reachable desk rest (World.start rest)
  | step {w w' : World σ} : Reachable desk rest w → Step desk w w' → Reachable desk rest w'

/-! ## The latest request under an id -/

variable {fs : List Forward} {f g : Forward} {tid t : UInt64} {a : Answer}

theorem newest_cons : newest (f :: fs) tid = if f.tid = tid then some f else newest fs tid := by
  simp only [newest, List.find?_cons]
  by_cases h : f.tid = tid
  · simp [h]
  · simp [h]

theorem newest_tid (h : newest fs tid = some f) : f.tid = tid := by
  have := List.find?_some h
  simpa using this

theorem mem_of_newest (h : newest fs tid = some f) : f ∈ fs :=
  List.mem_of_find?_eq_some h

/-- Attaching an answer changes the latest request under its own id
only, and there it adds the answer. -/
theorem newest_attach : newest (attach tid a fs) t =
    if t = tid then (newest fs tid).map fun f => { f with answers := a :: f.answers }
    else newest fs t := by
  induction fs with
  | nil => simp [attach, newest]
  | cons f fs ih =>
    rw [attach]
    by_cases hf : f.tid = tid
    · rw [if_pos hf, newest_cons, newest_cons, newest_cons, if_pos hf]
      by_cases ht : t = tid
      · subst ht
        simp [hf]
      · rw [if_neg (fun h : f.tid = t => ht (h.symm.trans hf)), if_neg ht,
          if_neg (fun h : f.tid = t => ht (h.symm.trans hf))]
    · rw [if_neg hf, newest_cons, newest_cons, newest_cons, if_neg hf, ih]
      by_cases ht : t = tid
      · subst ht
        simp [hf]
      · simp [ht]

/-- What a request with an answer attached was before: itself, or the
latest under the id. -/
theorem mem_attach (h : g ∈ attach tid a fs) :
    g ∈ fs ∨ ∃ f, newest fs tid = some f ∧ g = { f with answers := a :: f.answers } := by
  induction fs with
  | nil => simp [attach] at h
  | cons f fs ih =>
    rw [attach] at h
    by_cases hf : f.tid = tid
    · rw [if_pos hf] at h
      rcases List.mem_cons.mp h with rfl | h
      · exact Or.inr ⟨f, by rw [newest_cons, if_pos hf], rfl⟩
      · exact Or.inl (List.mem_cons_of_mem _ h)
    · rw [if_neg hf] at h
      rcases List.mem_cons.mp h with rfl | h
      · exact Or.inl List.mem_cons_self
      · rcases ih h with h | ⟨f', hf', rfl⟩
        · exact Or.inl (List.mem_cons_of_mem _ h)
        · exact Or.inr ⟨f', by rw [newest_cons, if_neg hf]; exact hf', rfl⟩

/-- The ids stay in place. -/
theorem map_tid_attach : (attach tid a fs).map Forward.tid = fs.map Forward.tid := by
  induction fs with
  | nil => rfl
  | cons f fs ih =>
    rw [attach]
    by_cases hf : f.tid = tid
    · rw [if_pos hf]; rfl
    · rw [if_neg hf, List.map_cons, List.map_cons, ih]

end Daemon

end Muplar
