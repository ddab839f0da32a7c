import Muplar.Common.Run
import Muplar.Daemon.Routing
/-!
# muplard — the loop as a machine

What happens to the loop from outside, as events: a connection, one
client's turn, the end of a cycle. An event is admitted where the kernel
can deliver it: a new connection gets a descriptor that is not in use and
comes with a process and a user of 32 bits, a turn is that of a connected
client, and the payload read is as long as its header says.
-/

namespace Muplar

namespace Daemon

open Machine

variable {σ : Type}

/-- What the loop meets with. -/
inductive Event
  | accept (fd pid uid : ℤ)
  | turn (i : ℕ) (poll : Poll)
  | announce

/-- `receive_exact` reads as many bytes as the header announces. -/
def Poll.Exact : Poll → Prop
  | .message h (some payload) => payload.length = h.payloadSize.toNat
  | _ => True

instance (poll : Poll) : Decidable poll.Exact :=
  match poll with
  | .message h (some payload) => inferInstanceAs (Decidable (payload.length = h.payloadSize.toNat))
  | .message _ none | .idle | .hangup | .truncated => inferInstanceAs (Decidable True)

/-- The client goes at the end of this turn. -/
def Poll.leaves : Poll → Bool
  | .idle => false
  | poll => poll.request.isNone

/-- The request an event carries, where the loop accepts one. -/
def Event.request : Event → Option (Opcode × Bytes)
  | .turn _ poll => do
    let (h, payload) ← poll.request
    let op ← Opcode.ofCode h.opcode
    some (op, payload)
  | _ => none

/-- A `pid_t` and a `uid_t`. -/
def ClientInfo.Peer (info : ClientInfo) : Prop :=
  -(2 ^ 31) ≤ info.pid ∧ info.pid < 2 ^ 31 ∧ 0 ≤ info.uid ∧ info.uid < 2 ^ 32

instance (info : ClientInfo) : Decidable info.Peer :=
  inferInstanceAs (Decidable (-(2 ^ 31) ≤ info.pid ∧ info.pid < 2 ^ 31 ∧ 0 ≤ info.uid ∧
    info.uid < 2 ^ 32))

/-- The event can happen to the daemon `d`. -/
def State.Admits (d : State σ) : Event → Prop
  | .accept fd pid uid => 0 ≤ fd ∧ fd ∉ d.fds ∧ ({ pid, uid } : ClientInfo).Peer
  | .turn i poll => i < d.clients.length ∧ poll.Exact
  | .announce => True

instance (d : State σ) (e : Event) : Decidable (d.Admits e) :=
  match e with
  | .accept fd pid uid =>
    inferInstanceAs (Decidable (0 ≤ fd ∧ fd ∉ d.fds ∧ ({ pid, uid } : ClientInfo).Peer))
  | .turn i poll => inferInstanceAs (Decidable (i < d.clients.length ∧ poll.Exact))
  | .announce => inferInstanceAs (Decidable True)

/-- One event: the variables after it and what was sent. -/
def State.step (desk : Desk σ) (d : State σ) : Event → State σ × List Message
  | .accept fd pid uid => (accept d fd { pid, uid }, [])
  | .turn i poll => match d.clients[i]? with
    | some c => serveClient desk d i c poll
    | none => (d, [])
  | .announce => announce desk d

/-- The variables after one event. -/
def State.next (desk : Desk σ) (d : State σ) (e : Event) : State σ :=
  (d.step desk e).1

/-- One event, with the record beside the daemon. -/
def World.next (desk : Desk σ) (w : World σ) : Event → World σ
  | .accept fd pid uid => w.accept fd { pid, uid }
  | .turn i poll => match w.daemon.clients[i]? with
    | some c => w.serve desk i c poll
    | none => w
  | .announce => w.announce desk

/-! ## The three kinds of turn -/

theorem Poll.cases (poll : Poll) :
    poll = .idle ∨ (∃ h payload, poll.request = some (h, payload)) ∨ poll.leaves = true := by
  cases hreq : poll.request with
  | some request => exact Or.inr (Or.inl ⟨request.1, request.2, rfl⟩)
  | none =>
    cases poll with
    | idle => exact Or.inl rfl
    | _ => exact Or.inr (Or.inr (by rw [Poll.leaves, hreq]; rfl; simp))

theorem Poll.leaves_eq_false {poll : Poll} {h : Header} {payload : Bytes}
    (hreq : poll.request = some (h, payload)) : poll.leaves = false := by
  cases poll with
  | idle => rfl
  | _ => rw [Poll.leaves, hreq]; rfl; simp

theorem serveClient_of_request {desk : Desk σ} {d : State σ} {i : ℕ} {c : Client} {poll : Poll}
    {h : Header} {payload : Bytes} (hreq : poll.request = some (h, payload)) :
    serveClient desk d i c poll = handle desk d i c h payload := by
  cases poll with
  | message h' payload' => simp only [serveClient, hreq]
  | _ => simp [Poll.request] at hreq

theorem serveClient_of_leaves {desk : Desk σ} {d : State σ} {i : ℕ} {c : Client} {poll : Poll}
    (hl : poll.leaves = true) : serveClient desk d i c poll = removeClient d i c := by
  cases poll with
  | idle => cases hl
  | message h payload =>
    have hreq : (Poll.message h payload).request = none := Option.isNone_iff_eq_none.mp hl
    simp only [serveClient, hreq]
  | _ => rfl

theorem Poll.request_of_leaves {poll : Poll} (hl : poll.leaves = true) : poll.request = none := by
  cases poll with
  | idle => cases hl
  | _ => exact Option.isNone_iff_eq_none.mp hl

/-! ## Routing and the desk -/

/-- The opcodes the desk does not serve. -/
def Opcode.routed : Opcode → Bool
  | .listServices | .checkService | .registerService | .binderTransact | .binderReply
  | .packageChanged | .binderIncoming | .deviceActionChanged | .deviceInputChanged => true
  | _ => false

theorem handle_of_desk {desk : Desk σ} {d : State σ} {i : ℕ} {c : Client} {h : Header}
    {op : Opcode} {payload : Bytes} (hop : Opcode.ofCode h.opcode = some op)
    (hdesk : op.routed = false) :
    handle desk d i c h payload = serveDesk desk d i c h op payload := by
  simp only [handle, hop]
  cases op <;> first | rfl | cases hdesk

theorem map_info_modify (name : Bytes) (clients : List Client) (i : ℕ) :
    (clients.modify i (Client.own name)).map Client.info = clients.map Client.info :=
  map_modify_of_eq (f := Client.own name) (fun _ => rfl) clients i

/-- What the routing leaves alone: the desk and what the clients told
it. -/
structure Apart (d d' : State σ) : Prop where
  desk : d'.desk = d.desk
  infos : d'.clients.map Client.info = d.clients.map Client.info
  fds : d'.fds = d.fds

theorem Apart.refl (d : State σ) : Apart d d :=
  ⟨rfl, rfl, rfl⟩

theorem registerService_apart (d : State σ) (i : ℕ) (c : Client) (h : Header) (payload : Bytes) :
    Apart d (registerService d i c h payload).1 := by
  simp only [registerService]
  split
  · exact ⟨rfl, map_info_modify payload d.clients i,
      map_modify_of_eq (f := Client.own payload) (fun _ => rfl) d.clients i⟩
  · exact Apart.refl d

theorem binderTransact_apart (d : State σ) (c : Client) (h : Header) (payload : Bytes) :
    Apart d (binderTransact d c h payload).1 := by
  simp only [binderTransact]
  split
  · exact Apart.refl d
  · split
    · exact Apart.refl d
    · split <;> exact ⟨rfl, rfl, rfl⟩

theorem binderReply_apart (d : State σ) (c : Client) (h : Header) (payload : Bytes) :
    Apart d (binderReply d c h payload).1 := by
  simp only [binderReply]
  split
  · exact Apart.refl d
  · split <;> exact ⟨rfl, rfl, rfl⟩

theorem handle_apart {desk : Desk σ} {d : State σ} {i : ℕ} {c : Client} {h : Header}
    {payload : Bytes} (hop : ∀ op, Opcode.ofCode h.opcode = some op → op.routed = true) :
    Apart d (handle desk d i c h payload).1 := by
  cases hcode : Opcode.ofCode h.opcode with
  | none =>
    simp only [handle, hcode]
    exact Apart.refl d
  | some op =>
    have hrouted := hop op hcode
    simp only [handle, hcode]
    cases op <;> first
      | exact Apart.refl d
      | exact registerService_apart d i c h payload
      | exact binderTransact_apart d c h payload
      | exact binderReply_apart d c h payload
      | cases hrouted

theorem handle_no_notice {desk : Desk σ} {d : State σ} {i : ℕ} {c : Client} {h : Header}
    {payload : Bytes} (hop : ∀ op, Opcode.ofCode h.opcode = some op → op.routed = true) :
    ∀ m ∈ (handle desk d i c h payload).2, ∀ n : Notice, m.opcode ≠ n.opcode := by
  have hnot : ∀ op : Opcode, op = .listServices ∨ op = .checkService ∨ op = .registerService ∨
      op = .binderTransact ∨ op = .binderIncoming → ∀ n : Notice, op ≠ n.opcode := by
    rintro op (rfl | rfl | rfl | rfl | rfl) n <;> cases n <;> simp [Notice.opcode]
  intro m hm
  apply hnot
  cases hcode : Opcode.ofCode h.opcode with
  | none => simp [handle, hcode] at hm
  | some op =>
    have hrouted := hop op hcode
    simp only [handle, hcode] at hm
    cases op <;> cases hrouted
    all_goals simp only [checkService, registerService, binderTransact, binderReply] at hm
    all_goals
      repeat' split at hm
    all_goals simp_all

/-! ## What an event can do -/

/-- What an event comes to: a new connection, the end of a cycle, a turn
beside the desk, a client gone, a request served at the desk. -/
inductive Did (desk : Desk σ) (d : State σ) : Event → State σ × List Message → Prop
  | accepted (fd pid uid : ℤ) : Did desk d (.accept fd pid uid) (accept d fd { pid, uid }, [])
  | announced : Did desk d .announce (announce desk d)
  /-- nothing was asked, or something of the routing -/
  | aside {i : ℕ} {poll : Poll} {r : State σ × List Message} : poll.leaves = false →
      (∀ op payload, (Event.turn i poll).request = some (op, payload) → op.routed = true) →
      Apart d r.1 → (∀ m ∈ r.2, ∀ n : Notice, m.opcode ≠ n.opcode) →
      Did desk d (.turn i poll) r
  | left {i : ℕ} {poll : Poll} {c : Client} : d.clients[i]? = some c → poll.leaves = true →
      Did desk d (.turn i poll) (removeClient d i c)
  | served {i : ℕ} {poll : Poll} {c : Client} {h : Header} {op : Opcode} {payload : Bytes} :
      d.clients[i]? = some c → poll.request = some (h, payload) →
      Opcode.ofCode h.opcode = some op → op.routed = false →
      Did desk d (.turn i poll) (serveDesk desk d i c h op payload)

theorem request_turn {i : ℕ} {poll : Poll} {h : Header} {op : Opcode} {payload : Bytes}
    (hreq : poll.request = some (h, payload)) (hcode : Opcode.ofCode h.opcode = some op) :
    (Event.turn i poll).request = some (op, payload) := by
  simp [Event.request, hreq, hcode]

/-- **An event is one of five.** -/
theorem step_did (desk : Desk σ) {d : State σ} {e : Event} (hadm : d.Admits e) :
    Did desk d e (d.step desk e) := by
  cases e with
  | accept fd pid uid => exact .accepted fd pid uid
  | announce => exact .announced
  | turn i poll =>
    obtain ⟨hlt, -⟩ : i < d.clients.length ∧ _ := hadm
    have hc : d.clients[i]? = some d.clients[i] := List.getElem?_eq_getElem hlt
    simp only [State.step, hc]
    rcases poll.cases with rfl | ⟨h, payload, hreq⟩ | hl
    · exact .aside rfl (by simp [Event.request, Poll.request]) (Apart.refl d)
        (fun m hm => absurd hm (List.not_mem_nil))
    · rw [serveClient_of_request hreq]
      by_cases hrouted : ∀ op, Opcode.ofCode h.opcode = some op → op.routed = true
      · refine .aside (Poll.leaves_eq_false hreq) ?_ (handle_apart hrouted)
          (handle_no_notice hrouted)
        intro op payload' hop
        simp only [Event.request, hreq, Option.bind_eq_bind, Option.bind_some,
          Option.bind_eq_some_iff] at hop
        obtain ⟨op', hcode, heq⟩ := hop
        rw [← (Prod.mk.inj (Option.some.inj heq)).1]
        exact hrouted op' hcode
      · simp only [not_forall] at hrouted
        obtain ⟨op, hcode, hdesk⟩ := hrouted
        have hdesk' : op.routed = false := by simpa using hdesk
        rw [handle_of_desk hcode hdesk']
        exact .served hc hreq hcode hdesk'
    · rw [serveClient_of_leaves hl]
      exact .left hc hl

theorem serveDesk_fds (desk : Desk σ) (d : State σ) (i : ℕ) (c : Client) (h : Header)
    (op : Opcode) (payload : Bytes) : (serveDesk desk d i c h op payload).1.fds = d.fds :=
  map_modify_of_eq (g := Client.fd)
    (f := fun client => { client with info := (desk.serve d c.info op payload).info })
    (fun _ => rfl) d.clients i

/-- No descriptor is held twice. -/
theorem nodup_next (desk : Desk σ) {d : State σ} {e : Event} (hnd : d.fds.Nodup)
    (hadm : d.Admits e) : (d.next desk e).fds.Nodup := by
  have hdid := step_did desk hadm
  rw [State.next]
  generalize d.step desk e = r at hdid
  cases hdid with
  | accepted fd pid uid =>
    obtain ⟨-, hfree, -⟩ : 0 ≤ fd ∧ fd ∉ d.fds ∧ _ := hadm
    simp only [State.fds, accept, List.map_append, List.map_cons, List.map_nil]
    exact List.nodup_append.mpr ⟨hnd, List.nodup_singleton _, by
      intro x hx y hy hxy
      rw [List.mem_singleton] at hy
      exact hfree (hy ▸ hxy ▸ hx)⟩
  | announced => exact hnd
  | aside _ _ hapart => exact hapart.fds ▸ hnd
  | left hc hl => exact hnd.sublist ((List.eraseIdx_sublist d.clients _).map _)
  | served =>
    rw [serveDesk_fds]
    exact hnd

/-! ## Along the record -/

theorem World.next_step {desk : Desk σ} {w : World σ} {e : Event} (h : w.daemon.Admits e) :
    Step desk w (w.next desk e) := by
  cases e with
  | accept fd pid uid => exact .accept fd _ h.1 h.2.1
  | turn i poll =>
    have hlt : i < w.daemon.clients.length := h.1
    have hc : w.daemon.clients[i]? = some w.daemon.clients[i] := List.getElem?_eq_getElem hlt
    simp only [World.next, hc]
    exact .serve i _ poll hc
  | announce => exact .announce

/-- The invariant of the loop, along a run. -/
theorem World.Inv.next (desk : Desk σ) {w : World σ} {e : Event} (hi : w.Inv)
    (h : w.daemon.Admits e) : (w.next desk e).Inv :=
  step_inv hi (World.next_step h)

end Daemon

end Muplar
