import Muplar.Daemon.Model
/-!
# muplard — what one turn can do

The loop has a branch for each opcode and one for removal, but only four
of them touch what routes binder traffic. `serveClient_turn` says so
once: a turn leaves the routing alone, registers one name, forwards one
transaction, answers one, or removes the client. Everything proved of the
loop afterwards goes through these five cases.
-/

namespace Muplar

namespace Daemon

variable {σ : Type}

/-! ## Turns that leave the routing alone -/

/-- What the routing reads of a client. -/
def Client.route (c : Client) : ℤ × List Bytes :=
  (c.fd, c.ownedServices)

/-- A message that neither forwards a transaction nor answers one. -/
def Message.Plain (m : Message) : Prop :=
  m.answers = none ∧ m.opcode ≠ .binderIncoming

/-- The turn changed neither map, nor the id to come, nor who is
connected and owns what, and what it sent is plain. -/
structure Quiet (d d' : State σ) (out : List Message) : Prop where
  services : d'.services = d.services
  pending : d'.pendingTransactions = d.pendingTransactions
  nextId : d'.nextTransactionId = d.nextTransactionId
  routes : d'.clients.map Client.route = d.clients.map Client.route
  plain : ∀ m ∈ out, m.Plain

theorem Quiet.refl {d : State σ} {out : List Message} (h : ∀ m ∈ out, m.Plain) :
    Quiet d d out :=
  ⟨rfl, rfl, rfl, rfl, h⟩

theorem Quiet.fds {d d' : State σ} {out : List Message} (h : Quiet d d' out) : d'.fds = d.fds := by
  have := congrArg (List.map Prod.fst) h.routes
  rw [List.map_map, List.map_map] at this
  exact this

theorem map_modify_of_eq {α β : Type*} {g : α → β} {f : α → α} (h : ∀ a, g (f a) = g a)
    (l : List α) (i : ℕ) : (l.modify i f).map g = l.map g := by
  induction l generalizing i with
  | nil => simp
  | cons a l ih => cases i with
    | zero => simp [h]
    | succ i => simp [ih]

theorem notify_plain {clients : List Client} {notice : Notice} {text : Bytes} :
    ∀ m ∈ notify clients notice text, m.Plain := by
  intro m hm
  simp only [notify, List.mem_map] at hm
  obtain ⟨c, -, rfl⟩ := hm
  exact ⟨rfl, by cases notice <;> simp [Notice.opcode]⟩

/-- Serving an opcode of the desk is quiet. -/
theorem serveDesk_quiet {desk : Desk σ} {d : State σ} {i : ℕ} {c : Client} {h : Header}
    {op : Opcode} {payload : Bytes} (hop : op ≠ .binderIncoming) :
    Quiet d (serveDesk desk d i c h op payload).1 (serveDesk desk d i c h op payload).2 where
  services := rfl
  pending := rfl
  nextId := rfl
  routes := map_modify_of_eq
    (f := fun client => { client with info := (desk.serve d c.info op payload).info })
    (fun _ => rfl) d.clients i
  plain := by
    intro m hm
    simp only [serveDesk, List.mem_cons] at hm
    rcases hm with rfl | hm
    · exact ⟨rfl, hop⟩
    · split at hm
      · cases hm
      · exact notify_plain m hm

theorem announce_quiet (desk : Desk σ) (d : State σ) :
    Quiet d (announce desk d).1 (announce desk d).2 := by
  refine ⟨rfl, rfl, rfl, rfl, ?_⟩
  intro m hm
  simp only [announce] at hm
  split at hm
  · cases hm
  · exact notify_plain m hm

/-! ## The five turns -/

/-- What the turn of client `c`, at index `i`, does to the daemon `d`. -/
inductive Turn (d : State σ) (i : ℕ) (c : Client) (poll : Poll) : State σ × List Message → Prop
  /-- The routing is left alone. -/
  | quiet {r : State σ × List Message} : Quiet d r.1 r.2 → Turn d i c poll r
  /-- A name nobody owns goes to the client. -/
  | register {h : Header} {name : Bytes} {m : Message} :
      (∀ fd, d.services.lookup name = some fd → fd < 0) → m.Plain →
      poll.request = some (h, name) →
      Turn d i c poll
        ({ d with
            services := d.services.insert name c.fd
            clients := d.clients.modify i (Client.own name) }, [m])
  /-- A transaction is forwarded to the owner of its service. -/
  | forward {h : Header} {payload : Bytes} {owner : ℤ} {m : Message} :
      poll.request = some (h, payload) →
      d.services.lookup (payload.takeWhile (· ≠ newline)) = some owner → 0 ≤ owner →
      m.fd = owner → m.opcode = .binderIncoming → m.requestId = d.nextTransactionId →
      m.answers = none →
      Turn d i c poll
        ({ d with
            nextTransactionId := d.nextTransactionId + 1
            pendingTransactions := d.pendingTransactions.insert d.nextTransactionId
              ⟨c.fd, owner, h.requestId⟩ }, [m])
  /-- A transaction's owner answers it. -/
  | answer {h : Header} {payload : Bytes} {p : PendingTransaction} :
      poll.request = some (h, payload) → Opcode.ofCode h.opcode = some .binderReply →
      d.pendingTransactions.lookup h.requestId = some p → p.ownerFd = c.fd →
      Turn d i c poll
        ({ d with pendingTransactions := d.pendingTransactions.erase h.requestId },
          [{ fd := p.callerFd, opcode := .binderTransact, requestId := p.callerRequestId,
             payload, answers := some h.requestId }])
  /-- The client goes. -/
  | remove : Turn d i c poll (removeClient d i c)

theorem checkService_turn {d : State σ} {i : ℕ} {c : Client} {poll : Poll} {h : Header}
    {payload : Bytes} : Turn d i c poll (checkService d c h payload) := by
  refine .quiet (Quiet.refl ?_)
  intro m hm
  simp only [checkService, List.mem_singleton] at hm
  subst hm
  exact ⟨rfl, by simp⟩

theorem registerService_turn {d : State σ} {i : ℕ} {c : Client} {poll : Poll} {h : Header}
    {payload : Bytes} (hreq : poll.request = some (h, payload)) :
    Turn d i c poll (registerService d i c h payload) := by
  simp only [registerService]
  split
  · rename_i hfree
    refine .register ?_ ⟨rfl, by simp⟩ hreq
    intro fd hfd
    simp only [available, hfd, Bool.and_eq_true, decide_eq_true_eq] at hfree
    exact hfree.2
  · exact .quiet (Quiet.refl (by simp [Message.Plain]))

/-- The branch that gives up on an unreachable owner is not taken while
every service is owned by a connected client. -/
theorem binderTransact_turn {d : State σ} {i : ℕ} {c : Client} {poll : Poll} {h : Header}
    {payload : Bytes} (hreq : poll.request = some (h, payload))
    (howned : ∀ name fd, d.services.lookup name = some fd → 0 ≤ fd → fd ∈ d.fds) :
    Turn d i c poll (binderTransact d c h payload) := by
  simp only [binderTransact]
  split
  · exact .quiet (Quiet.refl (by simp [Message.Plain]))
  · rename_i owner hlook
    split
    · exact .quiet (Quiet.refl (by simp [Message.Plain]))
    · rename_i hok
      have hpos : 0 ≤ owner := by
        by_contra hneg
        exact hok (Or.inr (by omega))
      have hsend : owner ∈ d.fds := howned _ _ hlook hpos
      split
      · exact .forward hreq hlook hpos rfl rfl rfl rfl
      · rename_i hfail
        exact absurd (decide_eq_true hsend) hfail

theorem binderReply_turn {d : State σ} {i : ℕ} {c : Client} {poll : Poll} {h : Header}
    {payload : Bytes} (hreq : poll.request = some (h, payload))
    (hop : Opcode.ofCode h.opcode = some .binderReply) :
    Turn d i c poll (binderReply d c h payload) := by
  simp only [binderReply]
  split
  · exact .quiet (Quiet.refl (by simp))
  · rename_i p hlook
    split
    · rename_i hown
      exact .answer hreq hop hlook hown
    · exact .quiet (Quiet.refl (by simp))

theorem handle_turn {desk : Desk σ} {d : State σ} {i : ℕ} {c : Client} {poll : Poll} {h : Header}
    {payload : Bytes} (hreq : poll.request = some (h, payload))
    (howned : ∀ name fd, d.services.lookup name = some fd → 0 ≤ fd → fd ∈ d.fds) :
    Turn d i c poll (handle desk d i c h payload) := by
  simp only [handle]
  split
  · exact .quiet (Quiet.refl (by simp [Message.Plain]))
  · exact checkService_turn
  · exact registerService_turn hreq
  · exact binderTransact_turn hreq howned
  · rename_i hop
    exact binderReply_turn hreq hop
  · exact .quiet (Quiet.refl (by simp))
  · exact .quiet (Quiet.refl (by simp))
  · exact .quiet (Quiet.refl (by simp))
  · exact .quiet (Quiet.refl (by simp))
  · rename_i hin _ _ _
    exact .quiet (serveDesk_quiet fun h => hin (h ▸ rfl))
  · exact .quiet (Quiet.refl (by simp))

/-- **A turn is one of five.** -/
theorem serveClient_turn {desk : Desk σ} {d : State σ} {i : ℕ} {c : Client} {poll : Poll}
    (howned : ∀ name fd, d.services.lookup name = some fd → 0 ≤ fd → fd ∈ d.fds) :
    Turn d i c poll (serveClient desk d i c poll) := by
  simp only [serveClient]
  split
  · exact .quiet (Quiet.refl (by simp))
  · split
    · rename_i hreq
      exact handle_turn hreq howned
    · exact .remove

end Daemon

end Muplar
