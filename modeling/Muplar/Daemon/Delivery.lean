import Muplar.Daemon.Routing
/-!
# muplard — what a client can count on

What the invariant says of every run, in the terms of the clients, and
the one way a request can be lost. The transaction counter has 64 bits
and nothing looks whether the id it gives is still in use: the request
that holds the id is then overwritten. `lost_after_wraparound` carries a
run out to that point.
-/

namespace Muplar

namespace Daemon

variable {σ : Type} {w : World σ}

/-! ## A run to look at -/

/-- A well-formed message with opcode number `op`. -/
def message (op : UInt16) (requestId : UInt64) (payload : Bytes) : Poll :=
  .message ⟨kProtocolMagic, kProtocolVersion, op, UInt32.ofNat payload.length, requestId⟩
    (some payload)

/-- A desk that answers everything with nothing. -/
def silentDesk : Desk Unit where
  serve _ info _ _ := { desk := (), info, reply := [] }
  tick s := (s, none)

def caller : Client := { fd := 4 }

def owner : Client := { fd := 5, ownedServices := [ascii "s"] }

/-- A request to the service `s`. -/
def call (requestId : UInt64) : Poll :=
  message 14 requestId (ascii "s\n")

/-- An answer to transaction `tid`. -/
def answer (tid : UInt64) : Poll :=
  message 16 tid []

/-- Two clients connect, the second registers the service, and the first
sends request `7`. -/
def opening : World Unit :=
  ((((World.start ()).accept 4 {}).accept 5 {}).serve silentDesk 1 { fd := 5 }
    (message 3 1 (ascii "s"))).serve silentDesk 0 caller (call 7)

theorem opening_reachable : Reachable silentDesk () opening := by
  refine (((Reachable.start.step (.accept 4 {} ?_ ?_)).step (.accept 5 {} ?_ ?_)).step
    (.serve 1 { fd := 5 } _ ?_)).step (.serve 0 caller _ ?_)
  all_goals decide

/-! ## Every run -/

/-- Among the latest `2 ^ 64` requests no two went out under one id. -/
theorem World.Inv.newest_of_lt (hi : w.Inv) {k : ℕ} {f : Forward} (hk : k < 2 ^ 64)
    (hf : w.forwards[k]? = some f) : newest w.forwards f.tid = some f := by
  have hmap : ∀ {j : ℕ} {g : Forward}, w.forwards[j]? = some g →
      g.tid + UInt64.ofNat (j + 1) = w.daemon.nextTransactionId := by
    intro j g hg
    exact hi.ids j g.tid (by rw [List.getElem?_map, hg]; rfl)
  rw [newest, List.find?_eq_some_iff_getElem]
  obtain ⟨hlt, hget⟩ := List.getElem?_eq_some_iff.mp hf
  refine ⟨by simp, k, hlt, hget, ?_⟩
  intro j hj
  have hgj : w.forwards[j]? = some w.forwards[j] := List.getElem?_eq_getElem _
  have heq : (w.forwards[j]).tid + UInt64.ofNat (j + 1) = f.tid + UInt64.ofNat (k + 1) :=
    (hmap hgj).trans (hmap hf).symm
  simp only [Bool.not_eq_eq_eq_not, Bool.not_true, decide_eq_false_iff_not]
  intro htid
  rw [htid] at heq
  have hnum := congrArg UInt64.toNat ((UInt64.add_right_inj _).mp heq)
  rw [UInt64.toNat_ofNat', UInt64.toNat_ofNat'] at hnum
  omega

/-- **Nothing is misrouted, answered twice or dropped.** In every run: a
service belongs to an open connection, the one that registered it; both
ends of a pending transaction are open, and are the connections it was
forwarded between; a forwarded request is answered at most once, to its
sender, with its own request id, by its owner's reply or by the notice
that its owner is gone; and a request since which fewer than `2 ^ 64`
others were forwarded is answered or pending for as long as its sender
stays. -/
theorem routing_sound {desk : Desk σ} {rest : σ} (h : Reachable desk rest w) :
    (∀ name fd, w.daemon.services.lookup name = some fd → 0 ≤ fd →
      fd ∈ w.daemon.fds ∧ w.connOf fd = w.registrant name) ∧
    (∀ tid p, w.daemon.pendingTransactions.lookup tid = some p →
      p.callerFd ∈ w.daemon.fds ∧ p.ownerFd ∈ w.daemon.fds ∧ ∃ f, w.Open tid p f) ∧
    (∀ f ∈ w.forwards, Settled w.receipts w.removed f) ∧
    (∀ (k : ℕ) f, w.forwards[k]? = some f → k < 2 ^ 64 → w.Connected f.caller →
      f.answers ≠ [] ∨ ∃ p, w.daemon.pendingTransactions.lookup f.tid = some p ∧
        w.Open f.tid p f) := by
  have hi := reachable_inv h
  refine ⟨fun name fd hs hfd => ⟨hi.owned_fds name fd hs hfd, hi.registrant name fd hs hfd⟩,
    hi.pending, hi.settled, ?_⟩
  intro k f hf hk hconn
  have hnew := hi.newest_of_lt hk hf
  refine (hi.kept f.tid f hnew hconn).imp_right ?_
  rintro ⟨p, hp⟩
  obtain ⟨-, -, g, hopen⟩ := hi.pending f.tid p hp
  obtain rfl : g = f := Option.some.inj (hopen.newest.symm.trans hnew)
  exact ⟨p, hp, hopen⟩

theorem routing_sound_opening : Reachable silentDesk () opening ∧
    ∃ p, opening.daemon.pendingTransactions.lookup 1 = some p ∧
      p.callerFd ∈ opening.daemon.fds ∧ p.ownerFd ∈ opening.daemon.fds ∧
      ∃ f, opening.Open 1 p f :=
  ⟨opening_reachable, ⟨4, 5, 7⟩, rfl, (routing_sound opening_reachable).2.1 1 ⟨4, 5, 7⟩ rfl⟩

/-! ## A request that is lost -/

theorem serveClient_call (d : State Unit) (requestId : UInt64)
    (hs : d.services.lookup (ascii "s") = some 5) (hfd : (5 : ℤ) ∈ d.fds) :
    serveClient silentDesk d 0 caller (call requestId) =
      ({ d with
          nextTransactionId := d.nextTransactionId + 1
          pendingTransactions :=
            d.pendingTransactions.insert d.nextTransactionId ⟨4, 5, requestId⟩ },
        [{ fd := 5, opcode := .binderIncoming, requestId := d.nextTransactionId,
           payload := [], reply := false }]) := by
  show binderTransact d caller _ (ascii "s\n") = _
  have hline : ¬(newline ∉ ascii "s\n" ∨ (5 : ℤ) < 0) := by decide
  simp only [binderTransact]
  split
  · next hnone => exact absurd (hnone.symm.trans hs) (by simp)
  · next o ho =>
    obtain rfl : o = 5 := Option.some.inj (ho.symm.trans hs)
    rw [if_neg hline, if_pos (by simpa [State.sendOk, State.fds] using hfd)]
    rfl

theorem serveClient_answer (d : State Unit) (tid requestId : UInt64)
    (hp : d.pendingTransactions.lookup tid = some ⟨4, 5, requestId⟩) :
    serveClient silentDesk d 1 owner (answer tid) =
      ({ d with pendingTransactions := d.pendingTransactions.erase tid },
        [{ fd := 4, opcode := .binderTransact, requestId := requestId, payload := [],
           answers := some tid }]) := by
  show binderReply d owner _ [] = _
  simp only [binderReply, hp]
  rfl

/-- Two clients are connected, the second owns the service, and nobody
has answered the first one's request `7`, which went out as transaction
`1`. -/
structure Waiting (w : World Unit) (f : Forward) : Prop where
  clients : w.daemon.clients = [caller, owner]
  service : w.daemon.services.lookup (ascii "s") = some 5
  connOf : w.connOf 4 = f.caller
  mem : f ∈ w.forwards
  tid : f.tid = 1
  requestId : f.requestId = 7
  unanswered : f.answers = []

theorem Waiting.mem_fds {w : World Unit} {f : Forward} (h : Waiting w f) :
    (4 : ℤ) ∈ w.daemon.fds ∧ (5 : ℤ) ∈ w.daemon.fds := by
  rw [State.fds, h.clients]
  decide

theorem mem_attach_of_ne {fs : List Forward} {f : Forward} {tid : UInt64} {a : Answer}
    (hf : f ∈ fs) (hne : f.tid ≠ tid) : f ∈ attach tid a fs := by
  induction fs with
  | nil => cases hf
  | cons g fs ih =>
    rw [attach]
    rcases List.mem_cons.mp hf with rfl | hf
    · rw [if_neg hne]
      exact List.mem_cons_self
    · by_cases hg : g.tid = tid
      · rw [if_pos hg]
        exact List.mem_cons_of_mem _ hf
      · rw [if_neg hg]
        exact List.mem_cons_of_mem _ (ih hf)

/-- One more request leaves the waiting one where it was. -/
theorem Waiting.call {w : World Unit} {f : Forward} (h : Waiting w f) (requestId : UInt64) :
    Waiting (w.serve silentDesk 0 caller (call requestId)) f := by
  have hturn := serveClient_call w.daemon requestId h.service h.mem_fds.2
  refine ⟨?_, ?_, h.connOf, ?_, h.tid, h.requestId, h.unanswered⟩
  · simp only [World.serve, World.record, hturn, h.clients]
  · simp only [World.serve, World.record, hturn, h.service]
  · simp only [World.serve, World.record, hturn, List.foldl_cons, List.foldl_nil, World.note]
    exact List.mem_cons_of_mem _ h.mem

/-- So does the answer to another one. -/
theorem Waiting.answer {w : World Unit} {f : Forward} (h : Waiting w f) {tid requestId : UInt64}
    (hp : w.daemon.pendingTransactions.lookup tid = some ⟨4, 5, requestId⟩) (hne : tid ≠ 1) :
    Waiting (w.serve silentDesk 1 owner (answer tid)) f := by
  have hturn := serveClient_answer w.daemon tid requestId hp
  refine ⟨?_, ?_, h.connOf, ?_, h.tid, h.requestId, h.unanswered⟩
  · simp only [World.serve, World.record, hturn, h.clients]
  · simp only [World.serve, World.record, hturn, h.service]
  · simp only [World.serve, World.record, hturn, List.foldl_cons, List.foldl_nil, World.note]
    exact mem_attach_of_ne h.mem (by rw [h.tid]; exact hne.symm)

/-- A round: the caller asks again, and the owner answers that request. -/
theorem Waiting.round {w : World Unit} {f : Forward} (hr : Reachable silentDesk () w)
    (h : Waiting w f) (hne : w.daemon.nextTransactionId ≠ 1) :
    ∃ w', Reachable silentDesk () w' ∧ Waiting w' f ∧
      w'.daemon.nextTransactionId = w.daemon.nextTransactionId + 1 := by
  have hturn := serveClient_call w.daemon 8 h.service h.mem_fds.2
  have h₁ := h.call 8
  have hp : (w.serve silentDesk 0 caller (Daemon.call 8)).daemon.pendingTransactions.lookup
      w.daemon.nextTransactionId = some ⟨4, 5, 8⟩ := by
    simp only [World.serve, World.record, hturn, AList.lookup_insert]
  have hturn₂ := serveClient_answer _ w.daemon.nextTransactionId 8 hp
  refine ⟨_, (hr.step (.serve 0 caller (Daemon.call 8) ?_)).step
    (.serve 1 owner (Daemon.answer w.daemon.nextTransactionId) ?_), h₁.answer hp hne, ?_⟩
  · rw [h.clients]; rfl
  · rw [h₁.clients]; rfl
  · rw [World.serve, World.record, hturn₂]
    simp only [World.serve, World.record, hturn]

/-- After `k` rounds the counter stands at `2 + k`. -/
theorem Waiting.rounds {w : World Unit} {f : Forward} (hr : Reachable silentDesk () w)
    (h : Waiting w f) (hnext : w.daemon.nextTransactionId = 2) (k : ℕ) (hk : k < 2 ^ 64) :
    ∃ w', Reachable silentDesk () w' ∧ Waiting w' f ∧
      w'.daemon.nextTransactionId = 2 + UInt64.ofNat k := by
  induction k with
  | zero => exact ⟨w, hr, h, hnext⟩
  | succ k ih =>
    obtain ⟨w₁, hr₁, h₁, hnext₁⟩ := ih (by omega)
    have hne : w₁.daemon.nextTransactionId ≠ 1 := by
      rw [hnext₁]
      intro heq
      have hnum := congrArg UInt64.toNat heq
      rw [UInt64.toNat_add, UInt64.toNat_ofNat', Nat.mod_eq_of_lt (by omega : k < 2 ^ 64)] at hnum
      have htwo : UInt64.toNat 2 = 2 := rfl
      have hone : UInt64.toNat 1 = 1 := rfl
      omega
    obtain ⟨w₂, hr₂, h₂, hnext₂⟩ := h₁.round hr₁ hne
    refine ⟨w₂, hr₂, h₂, ?_⟩
    rw [hnext₂, hnext₁, UInt64.add_assoc, UInt64.ofNat_add]
    rfl

theorem opening_waiting :
    Waiting opening { tid := 1, caller := 0, owner := 1, requestId := 7 } where
  clients := by rfl
  service := by rfl
  connOf := by rfl
  mem := List.mem_singleton.mpr rfl
  tid := by rfl
  requestId := by rfl
  unanswered := by rfl

/-- **A request can be lost.** Request `7` waits while `2 ^ 64 - 1`
others come and go; the next one is forwarded as transaction `1` again
and takes its place. Its sender is connected, nobody answered it, and
no pending transaction is its own. -/
theorem lost_after_wraparound :
    ¬∀ w : World Unit, Reachable silentDesk () w → ∀ f ∈ w.forwards, w.Connected f.caller →
      f.answers ≠ [] ∨ ∃ p, w.daemon.pendingTransactions.lookup f.tid = some p ∧
        w.Open f.tid p f := by
  intro hall
  obtain ⟨w, hr, h, hnext⟩ := opening_waiting.rounds opening_reachable rfl (2 ^ 64 - 1) (by omega)
  have hwrap : w.daemon.nextTransactionId = 1 := by
    rw [hnext]
    decide
  have hturn := serveClient_call w.daemon 8 h.service h.mem_fds.2
  have h' := h.call 8
  have hstep : Reachable silentDesk () (w.serve silentDesk 0 caller (call 8)) :=
    hr.step (.serve 0 caller (call 8) (by rw [h.clients]; rfl))
  rcases hall _ hstep _ h'.mem ⟨4, h'.mem_fds.1, h'.connOf⟩ with hans | ⟨p, hp, hopen⟩
  · exact hans h'.unanswered
  · have hp' : p = ⟨4, 5, 8⟩ := by
      simp only [World.serve, World.record, hturn, hwrap, AList.lookup_insert] at hp
      exact (Option.some.inj hp).symm
    have hid := hopen.requestId
    rw [hp'] at hid
    exact absurd hid (by decide)

end Daemon

end Muplar
