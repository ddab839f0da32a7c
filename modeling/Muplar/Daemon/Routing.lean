import Muplar.Daemon.Ledger
/-!
# muplard — nothing is misrouted

The invariant of the loop and its consequences for every run. The daemon
knows clients by descriptor alone, and it is right to: an entry of either
map names a descriptor only while the connection that put it there holds
the descriptor, since removal clears both maps of the client's number
before the number is free again. So an answer reaches whoever asked, and
a forwarded request is answered once, by its owner or by the owner's
removal.

Transaction ids are 64 bits wide and are handed out in turn. A request
can be forgotten only when its id comes round again while it is pending,
which takes `2 ^ 64` further requests.
-/

namespace Muplar

namespace Daemon

variable {σ : Type} {w : World σ}

/-! ## The invariant -/

/-- The clients' descriptors with the services each registered. -/
def State.routes (d : State σ) : List (ℤ × List Bytes) :=
  d.clients.map Client.route

theorem State.fds_eq (d : State σ) : d.fds = d.routes.map Prod.fst := by
  rw [State.routes, List.map_map]
  rfl

/-- The answers to `f` are as they should be: one at most, to the sender
and with its request id, carrying what the owner replied or the notice
that the owner is gone. -/
structure Settled (receipts : List Receipt) (removed : List ℕ) (f : Forward) : Prop where
  once : f.answers.length ≤ 1
  right : ∀ a ∈ f.answers, a.conn = some f.caller ∧ a.requestId = f.requestId ∧
    ((∃ r ∈ receipts, r.conn = f.owner ∧ Opcode.ofCode r.header.opcode = some .binderReply ∧
        r.header.requestId = f.tid ∧ r.payload = a.payload) ∨
      (a.payload = ascii "DEAD_OBJECT" ∧ f.owner ∈ removed))

theorem Settled.mono {receipts receipts' : List Receipt} {removed removed' : List ℕ} {f : Forward}
    (h : Settled receipts removed f) (h₁ : receipts ⊆ receipts') (h₂ : removed ⊆ removed') :
    Settled receipts' removed' f where
  once := h.once
  right a ha := by
    obtain ⟨hconn, hid, hwhy⟩ := h.right a ha
    refine ⟨hconn, hid, ?_⟩
    rcases hwhy with ⟨r, hr, hrest⟩ | ⟨hdead, hgone⟩
    · exact Or.inl ⟨r, h₁ hr, hrest⟩
    · exact Or.inr ⟨hdead, h₂ hgone⟩

theorem settled_of_no_answers {receipts : List Receipt} {removed : List ℕ} {f : Forward}
    (h : f.answers = []) : Settled receipts removed f :=
  ⟨by rw [h]; simp, by rw [h]; simp⟩

/-- The transaction `p` under `tid` is that of the latest request
forwarded as `tid`, which nobody has answered. -/
structure World.Open (w : World σ) (tid : UInt64) (p : PendingTransaction) (f : Forward) :
    Prop where
  newest : newest w.forwards tid = some f
  caller : w.connOf p.callerFd = f.caller
  owner : w.connOf p.ownerFd = f.owner
  requestId : p.callerRequestId = f.requestId
  unanswered : f.answers = []

/-- **What the loop preserves.** -/
structure World.Inv (w : World σ) : Prop where
  nodup : w.daemon.fds.Nodup
  nonneg : ∀ fd ∈ w.daemon.fds, 0 ≤ fd
  fresh : ∀ fd ∈ w.daemon.fds, w.connOf fd < w.accepted
  inj : ∀ fd ∈ w.daemon.fds, ∀ fd' ∈ w.daemon.fds, w.connOf fd = w.connOf fd' → fd = fd'
  owned : ∀ name fd, w.daemon.services.lookup name = some fd → 0 ≤ fd →
    ∃ r ∈ w.daemon.routes, r.1 = fd ∧ name ∈ r.2
  registrant : ∀ name fd, w.daemon.services.lookup name = some fd → 0 ≤ fd →
    w.connOf fd = w.registrant name
  ids : ∀ (k : ℕ) tid, (w.forwards.map Forward.tid)[k]? = some tid →
    tid + UInt64.ofNat (k + 1) = w.daemon.nextTransactionId
  past : ∀ f ∈ w.forwards, f.caller < w.accepted
  pending : ∀ tid p, w.daemon.pendingTransactions.lookup tid = some p →
    p.callerFd ∈ w.daemon.fds ∧ p.ownerFd ∈ w.daemon.fds ∧ ∃ f, w.Open tid p f
  settled : ∀ f ∈ w.forwards, Settled w.receipts w.removed f
  kept : ∀ tid f, newest w.forwards tid = some f → w.Connected f.caller →
    f.answers ≠ [] ∨ ∃ p, w.daemon.pendingTransactions.lookup tid = some p

theorem World.Inv.owned_fds (hi : w.Inv) (name : Bytes) (fd : ℤ)
    (h : w.daemon.services.lookup name = some fd) (hfd : 0 ≤ fd) : fd ∈ w.daemon.fds := by
  obtain ⟨r, hr, rfl, -⟩ := hi.owned name fd h hfd
  rw [State.fds_eq]
  exact List.mem_map_of_mem hr

theorem builtinServices_lookup {name : Bytes} {fd : ℤ}
    (h : builtinServices.lookup name = some fd) : fd < 0 := by
  have hall : ∀ e ∈ builtinServices.entries, e.2 < 0 := by decide
  exact hall _ (AList.mem_lookup_iff.mp h)

theorem start_inv (rest : σ) : (World.start rest).Inv where
  nodup := List.nodup_nil
  nonneg := by simp [World.start, State.start, State.fds]
  fresh := by simp [World.start, State.start, State.fds]
  inj := by simp [World.start, State.start, State.fds]
  owned name fd h hfd := absurd (builtinServices_lookup h) (by omega)
  registrant name fd h hfd := absurd (builtinServices_lookup h) (by omega)
  ids := by simp [World.start]
  past := by simp [World.start]
  pending := by simp [World.start, State.start]
  settled := by simp [World.start]
  kept := by simp [World.start, newest]

/-! ## Accepting -/

theorem accept_fds (w : World σ) (fd : ℤ) (info : ClientInfo) :
    (w.accept fd info).daemon.fds = w.daemon.fds ++ [fd] := by
  simp [World.accept, Daemon.accept, State.fds]

/-- A connection already open keeps its number. -/
theorem accept_connOf {fd x : ℤ} {info : ClientInfo} (hfd : fd ∉ w.daemon.fds)
    (hx : x ∈ w.daemon.fds) : (w.accept fd info).connOf x = w.connOf x :=
  Function.update_of_ne (fun h : x = fd => hfd (h ▸ hx)) _ _

theorem accept_connOf_self {fd : ℤ} {info : ClientInfo} :
    (w.accept fd info).connOf fd = w.accepted :=
  Function.update_self _ _ _

theorem accept_inv {fd : ℤ} {info : ClientInfo} (hi : w.Inv) (hpos : 0 ≤ fd)
    (hfd : fd ∉ w.daemon.fds) : (w.accept fd info).Inv := by
  have hmem : ∀ x, x ∈ (w.accept fd info).daemon.fds → x ∈ w.daemon.fds ∨ x = fd := by
    intro x hx
    rw [accept_fds, List.mem_append, List.mem_singleton] at hx
    exact hx
  have hold : ∀ x ∈ w.daemon.fds, x ∈ (w.accept fd info).daemon.fds := by
    intro x hx
    rw [accept_fds]
    exact List.mem_append_left _ hx
  refine ⟨?_, ?_, ?_, ?_, ?_, ?_, hi.ids, ?_, ?_, hi.settled, ?_⟩
  · rw [accept_fds, List.nodup_append]
    exact ⟨hi.nodup, List.nodup_singleton _, by
      intro x hx y hy hxy
      rw [List.mem_singleton] at hy
      exact hfd (hy ▸ hxy ▸ hx)⟩
  · intro x hx
    rcases hmem x hx with hx | rfl
    · exact hi.nonneg x hx
    · exact hpos
  · intro x hx
    rcases hmem x hx with hx | rfl
    · rw [accept_connOf hfd hx]
      exact lt_trans (hi.fresh x hx) (Nat.lt_succ_self _)
    · rw [accept_connOf_self]
      exact Nat.lt_succ_self _
  · intro x hx y hy hxy
    rcases hmem x hx with hx' | hx' <;> rcases hmem y hy with hy' | hy'
    · rw [accept_connOf hfd hx', accept_connOf hfd hy'] at hxy
      exact hi.inj x hx' y hy' hxy
    · rw [accept_connOf hfd hx', hy', accept_connOf_self] at hxy
      exact absurd hxy (ne_of_lt (hi.fresh x hx'))
    · rw [accept_connOf hfd hy', hx', accept_connOf_self] at hxy
      exact absurd hxy.symm (ne_of_lt (hi.fresh y hy'))
    · rw [hx', hy']
  · intro name x hx hx0
    obtain ⟨r, hr, hr1, hr2⟩ := hi.owned name x hx hx0
    refine ⟨r, ?_, hr1, hr2⟩
    simp only [World.accept, Daemon.accept, State.routes, List.map_append, List.mem_append]
    exact Or.inl hr
  · intro name x hx hx0
    rw [accept_connOf hfd (hi.owned_fds name x hx hx0)]
    exact hi.registrant name x hx hx0
  · intro f hf
    exact lt_trans (hi.past f hf) (Nat.lt_succ_self _)
  · intro tid p hp
    obtain ⟨hc, ho, f, hopen⟩ := hi.pending tid p hp
    refine ⟨hold _ hc, hold _ ho, f, hopen.newest, ?_, ?_, hopen.requestId, hopen.unanswered⟩
    · rw [accept_connOf hfd hc]; exact hopen.caller
    · rw [accept_connOf hfd ho]; exact hopen.owner
  · intro tid f hf ⟨x, hx, hxf⟩
    -- the new connection sent no request yet, so the caller was open before
    rcases hmem x hx with hx | rfl
    · rw [accept_connOf hfd hx] at hxf
      exact hi.kept tid f hf ⟨x, hx, hxf⟩
    · rw [accept_connOf_self] at hxf
      exact absurd hxf.symm (ne_of_lt (hi.past f (mem_of_newest hf)))

/-! ## The quiet turn -/

/-- Plain messages leave the record of requests alone. -/
theorem foldl_note_plain {me : ℕ} {h : Header} {payload : Bytes} {out : List Message}
    (hout : ∀ m ∈ out, m.Plain) (fs : List Forward) :
    out.foldl (w.note me h payload) fs = fs := by
  induction out generalizing fs with
  | nil => rfl
  | cons m out ih =>
    have hm : w.note me h payload fs m = fs := by
      obtain ⟨h₁, h₂⟩ := hout m List.mem_cons_self
      simp only [World.note, h₁, if_neg h₂]
    rw [List.foldl_cons, hm]
    exact ih (fun m hm => hout m (List.mem_cons_of_mem _ hm)) fs

/-- The receipts of a turn are those before it, and its own. -/
theorem receipts_subset {c : Client} {poll : Poll} {r : State σ × List Message} :
    w.receipts ⊆ (w.record c poll r).receipts := by
  simp only [World.record]
  split
  · exact List.subset_cons_self _ _
  · exact List.Subset.refl _

theorem removed_subset {c : Client} {poll : Poll} {r : State σ × List Message} :
    w.removed ⊆ (w.record c poll r).removed := by
  simp only [World.record]
  split
  · exact List.Subset.refl _
  · exact List.subset_cons_self _ _

/-- **The frame.** A turn that leaves the descriptors, the transactions
and the record of requests alone has only the services to answer for. -/
theorem inv_of_frame {w' : World σ} (hi : w.Inv) (hfds : w'.daemon.fds = w.daemon.fds)
    (hconn : w'.connOf = w.connOf) (hacc : w'.accepted = w.accepted)
    (hpend : w'.daemon.pendingTransactions = w.daemon.pendingTransactions)
    (hnext : w'.daemon.nextTransactionId = w.daemon.nextTransactionId)
    (hfw : w'.forwards = w.forwards) (hrec : w.receipts ⊆ w'.receipts)
    (hrem : w.removed ⊆ w'.removed)
    (howned : ∀ name fd, w'.daemon.services.lookup name = some fd → 0 ≤ fd →
      ∃ r ∈ w'.daemon.routes, r.1 = fd ∧ name ∈ r.2)
    (hreg : ∀ name fd, w'.daemon.services.lookup name = some fd → 0 ≤ fd →
      w'.connOf fd = w'.registrant name) : w'.Inv where
  nodup := hfds ▸ hi.nodup
  nonneg := hfds ▸ hi.nonneg
  fresh := by rw [hfds, hconn, hacc]; exact hi.fresh
  inj := by rw [hfds, hconn]; exact hi.inj
  owned := howned
  registrant := hreg
  ids := by rw [hfw, hnext]; exact hi.ids
  past := by rw [hfw, hacc]; exact hi.past
  pending tid p hp := by
    rw [hpend] at hp
    obtain ⟨hc, ho, f, hopen⟩ := hi.pending tid p hp
    rw [hfds]
    refine ⟨hc, ho, f, ?_, ?_, ?_, hopen.requestId, hopen.unanswered⟩
    · rw [hfw]; exact hopen.newest
    · rw [hconn]; exact hopen.caller
    · rw [hconn]; exact hopen.owner
  settled := by
    rw [hfw]
    exact fun f hf => (hi.settled f hf).mono hrec hrem
  kept tid f hf := by
    rintro ⟨x, hx, hxf⟩
    rw [hfw] at hf
    rw [hfds] at hx
    rw [hconn] at hxf
    rw [hpend]
    exact hi.kept tid f hf ⟨x, hx, hxf⟩

theorem quiet_inv {c : Client} {poll : Poll} {r : State σ × List Message} (hi : w.Inv)
    (hq : Quiet w.daemon r.1 r.2) : (w.record c poll r).Inv := by
  refine inv_of_frame hi hq.fds rfl rfl hq.pending hq.nextId (foldl_note_plain hq.plain _)
    receipts_subset removed_subset ?_ ?_
  · intro name fd h hfd
    have hroutes : r.1.routes = w.daemon.routes := hq.routes
    simp only [World.record] at h ⊢
    rw [hroutes]
    rw [hq.services] at h
    exact hi.owned name fd h hfd
  · intro name fd h hfd
    simp only [World.record, hq.services, if_true] at h ⊢
    exact hi.registrant name fd h hfd

/-! ## Registering a name -/

/-- A client that registers a name keeps the names it had. -/
theorem exists_route_modify {l : List Client} (i : ℕ) (name : Bytes) {n : Bytes}
    {r : ℤ × List Bytes} (hr : r ∈ l.map Client.route) (hn : n ∈ r.2) :
    ∃ r' ∈ (l.modify i (Client.own name)).map Client.route, r'.1 = r.1 ∧ n ∈ r'.2 := by
  obtain ⟨c, hc, rfl⟩ := List.mem_map.mp hr
  obtain ⟨k, hk⟩ := List.getElem?_of_mem hc
  by_cases hik : i = k
  · have hmem : (l.modify i (Client.own name))[k]? = some (c.own name) := by
      rw [hik, List.getElem?_modify_eq, hk]; rfl
    exact ⟨_, List.mem_map_of_mem (List.mem_of_getElem? hmem), rfl, List.mem_insert_of_mem hn⟩
  · have hmem : (l.modify i (Client.own name))[k]? = some c := by
      rw [List.getElem?_modify_ne _ _ hik, hk]
    exact ⟨_, List.mem_map_of_mem (List.mem_of_getElem? hmem), rfl, hn⟩

theorem register_inv {i : ℕ} {c : Client} {poll : Poll} {name : Bytes} {m : Message} (hi : w.Inv)
    (hc : w.daemon.clients[i]? = some c)
    (hfree : ∀ fd, w.daemon.services.lookup name = some fd → fd < 0) (hm : m.Plain) :
    (w.record c poll
      ({ w.daemon with
          services := w.daemon.services.insert name c.fd
          clients := w.daemon.clients.modify i (Client.own name) }, [m])).Inv := by
  have hne : w.daemon.services.lookup name ≠ some c.fd := by
    intro h
    have := hfree _ h
    have := hi.nonneg _ (List.mem_map_of_mem (List.mem_of_getElem? hc))
    omega
  have hlook : ∀ n, (w.daemon.services.insert name c.fd).lookup n =
      if n = name then some c.fd else w.daemon.services.lookup n := by
    intro n
    by_cases hn : n = name
    · rw [if_pos hn, hn]; exact AList.lookup_insert _
    · rw [if_neg hn]; exact AList.lookup_insert_ne hn
  refine inv_of_frame hi (map_modify_of_eq (f := Client.own name) (fun _ => rfl) _ _) rfl rfl rfl
    rfl (foldl_note_plain (by simpa using hm) _) receipts_subset removed_subset ?_ ?_
  · intro n fd h hfd
    simp only [World.record, hlook] at h ⊢
    by_cases hn : n = name
    · rw [if_pos hn] at h
      have hmem : (w.daemon.clients.modify i (Client.own name))[i]? = some (c.own name) := by
        rw [List.getElem?_modify_eq, hc]; rfl
      refine ⟨_, List.mem_map_of_mem (List.mem_of_getElem? hmem), Option.some.inj h, ?_⟩
      rw [hn]; exact List.mem_insert_self
    · rw [if_neg hn] at h
      obtain ⟨r, hr, hr1, hr2⟩ := hi.owned n fd h hfd
      obtain ⟨r', hr', hr1', hr2'⟩ := exists_route_modify i name hr hr2
      exact ⟨r', hr', hr1'.trans hr1, hr2'⟩
  · intro n fd h hfd
    simp only [World.record, hlook] at h ⊢
    by_cases hn : n = name
    · rw [if_pos hn] at h ⊢
      rw [if_neg (by rw [hn]; exact fun h => hne h.symm), ← Option.some.inj h]
    · rw [if_neg hn] at h ⊢
      rw [if_pos rfl]
      exact hi.registrant n fd h hfd

/-! ## Forwarding a transaction -/

theorem forward_inv {i : ℕ} {c : Client} {poll : Poll} {h : Header} {payload : Bytes} {owner : ℤ}
    {m : Message} (hi : w.Inv) (hc : w.daemon.clients[i]? = some c)
    (hreq : poll.request = some (h, payload))
    (hlook : w.daemon.services.lookup (payload.takeWhile (· ≠ newline)) = some owner)
    (hpos : 0 ≤ owner) (hop : m.opcode = .binderIncoming)
    (hid : m.requestId = w.daemon.nextTransactionId) (hans : m.answers = none) :
    (w.record c poll
      ({ w.daemon with
          nextTransactionId := w.daemon.nextTransactionId + 1
          pendingTransactions := w.daemon.pendingTransactions.insert w.daemon.nextTransactionId
            ⟨c.fd, owner, h.requestId⟩ }, [m])).Inv := by
  have hcfd : c.fd ∈ w.daemon.fds := List.mem_map_of_mem (List.mem_of_getElem? hc)
  set w' := w.record c poll
      ({ w.daemon with
          nextTransactionId := w.daemon.nextTransactionId + 1
          pendingTransactions := w.daemon.pendingTransactions.insert w.daemon.nextTransactionId
            ⟨c.fd, owner, h.requestId⟩ }, [m]) with hw'
  have hfw : w'.forwards =
      { tid := w.daemon.nextTransactionId, caller := w.connOf c.fd, requestId := h.requestId
        owner := w.registrant (payload.takeWhile (· ≠ newline)) } :: w.forwards := by
    simp [hw', World.record, World.note, hans, hop, hid, hreq]
  have hpend : w'.daemon.pendingTransactions = w.daemon.pendingTransactions.insert
      w.daemon.nextTransactionId ⟨c.fd, owner, h.requestId⟩ := rfl
  have hreg : w'.registrant = w.registrant := by
    funext name
    exact if_pos rfl
  refine ⟨hi.nodup, hi.nonneg, hi.fresh, hi.inj, hi.owned, hreg ▸ hi.registrant, ?_, ?_, ?_, ?_, ?_⟩
  · intro k tid htid
    rw [hfw, List.map_cons] at htid
    change tid + UInt64.ofNat (k + 1) = w.daemon.nextTransactionId + 1
    cases k with
    | zero => rw [← Option.some.inj htid]; rfl
    | succ k =>
      rw [List.getElem?_cons_succ] at htid
      rw [← hi.ids k tid htid, UInt64.add_assoc, UInt64.ofNat_add (k + 1) 1]
      rfl
  · intro f hf
    rw [hfw] at hf
    rcases List.mem_cons.mp hf with rfl | hf
    · exact hi.fresh _ hcfd
    · exact hi.past f hf
  · intro tid p hp
    rw [hpend] at hp
    by_cases ht : tid = w.daemon.nextTransactionId
    · subst ht
      rw [AList.lookup_insert] at hp
      obtain rfl := Option.some.inj hp
      refine ⟨hcfd, hi.owned_fds _ _ hlook hpos,
        ⟨w.daemon.nextTransactionId, w.connOf c.fd,
          w.registrant (payload.takeWhile (· ≠ newline)), h.requestId, []⟩,
        ?_, rfl, hi.registrant _ _ hlook hpos, rfl, rfl⟩
      rw [hfw, newest_cons, if_pos rfl]
    · rw [AList.lookup_insert_ne ht] at hp
      obtain ⟨hcl, ho, f, hopen⟩ := hi.pending tid p hp
      refine ⟨hcl, ho, f, ?_, hopen.caller, hopen.owner, hopen.requestId, hopen.unanswered⟩
      rw [hfw, newest_cons, if_neg (Ne.symm ht)]
      exact hopen.newest
  · intro f hf
    rw [hfw] at hf
    rcases List.mem_cons.mp hf with rfl | hf
    · exact settled_of_no_answers rfl
    · exact (hi.settled f hf).mono receipts_subset removed_subset
  · intro tid f hf hconn
    rw [hpend]
    by_cases ht : tid = w.daemon.nextTransactionId
    · exact Or.inr ⟨_, by rw [ht]; exact AList.lookup_insert _⟩
    · rw [hfw, newest_cons, if_neg (Ne.symm ht)] at hf
      rw [AList.lookup_insert_ne ht]
      exact hi.kept tid f hf hconn

/-! ## Answering a transaction -/

theorem answer_inv {i : ℕ} {c : Client} {poll : Poll} {h : Header} {payload : Bytes}
    {p : PendingTransaction} (hi : w.Inv) (hc : w.daemon.clients[i]? = some c)
    (hreq : poll.request = some (h, payload))
    (hop : Opcode.ofCode h.opcode = some .binderReply)
    (hlook : w.daemon.pendingTransactions.lookup h.requestId = some p) (hown : p.ownerFd = c.fd) :
    (w.record c poll
      ({ w.daemon with
          pendingTransactions := w.daemon.pendingTransactions.erase h.requestId },
        [{ fd := p.callerFd, opcode := .binderTransact, requestId := p.callerRequestId,
           payload, answers := some h.requestId }])).Inv := by
  obtain ⟨hcl, -, f, hopen⟩ := hi.pending _ _ hlook
  have hcfd : c.fd ∈ w.daemon.fds := List.mem_map_of_mem (List.mem_of_getElem? hc)
  set w' := w.record c poll
      ({ w.daemon with
          pendingTransactions := w.daemon.pendingTransactions.erase h.requestId },
        [{ fd := p.callerFd, opcode := .binderTransact, requestId := p.callerRequestId,
           payload, answers := some h.requestId }]) with hw'
  have hfw : w'.forwards = attach h.requestId
      ⟨some (w.connOf p.callerFd), p.callerRequestId, payload⟩ w.forwards := by
    simp [hw', World.record, World.note, World.reached, hcl]
  have hpend : w'.daemon.pendingTransactions =
      w.daemon.pendingTransactions.erase h.requestId := rfl
  have hreg : w'.registrant = w.registrant := by
    funext name
    exact if_pos rfl
  have hrec : w'.receipts = ⟨w.connOf c.fd, h, payload⟩ :: w.receipts := by
    simp [hw', World.record, hreq]
  refine ⟨hi.nodup, hi.nonneg, hi.fresh, hi.inj, hi.owned, hreg ▸ hi.registrant, ?_, ?_, ?_, ?_, ?_⟩
  · rw [hfw, map_tid_attach]; exact hi.ids
  · intro g hg
    rw [hfw] at hg
    rcases mem_attach hg with hg | ⟨f', hf', rfl⟩
    · exact hi.past g hg
    · exact hi.past f' (mem_of_newest hf')
  · intro tid q hq
    rw [hpend] at hq
    by_cases ht : tid = h.requestId
    · rw [ht, AList.lookup_erase] at hq
      cases hq
    · rw [AList.lookup_erase_ne ht] at hq
      obtain ⟨hcl', ho', f', hopen'⟩ := hi.pending tid q hq
      refine ⟨hcl', ho', f', ?_, hopen'.caller, hopen'.owner, hopen'.requestId,
        hopen'.unanswered⟩
      rw [hfw, newest_attach, if_neg ht]
      exact hopen'.newest
  · intro g hg
    rw [hfw] at hg
    rcases mem_attach hg with hg | ⟨f', hf', rfl⟩
    · exact (hi.settled g hg).mono receipts_subset removed_subset
    · -- the latest request under this id: it had no answer, and its owner replied
      obtain rfl : f' = f := Option.some.inj (hf'.symm.trans hopen.newest)
      refine ⟨by simp [hopen.unanswered], ?_⟩
      intro a ha
      simp only [hopen.unanswered, List.mem_singleton] at ha
      subst ha
      refine ⟨congrArg some hopen.caller, hopen.requestId, Or.inl ⟨⟨w.connOf c.fd, h, payload⟩, ?_,
        ?_, hop, (newest_tid hf').symm, rfl⟩⟩
      · rw [hrec]; exact List.mem_cons_self
      · rw [← hown]; exact hopen.owner
  · intro tid g hg hconn
    rw [hfw, newest_attach] at hg
    rw [hpend]
    by_cases ht : tid = h.requestId
    · rw [if_pos ht, hopen.newest, Option.map_some] at hg
      exact Or.inl (by rw [← Option.some.inj hg]; simp)
    · rw [if_neg ht] at hg
      rw [AList.lookup_erase_ne ht]
      exact hi.kept tid g hg hconn

/-! ## Removing a client -/

/-- What is left after a leaving client's names are released was there
before, and is not the client's under a name it owned. -/
theorem lookup_foldl_release {fd x : ℤ} {names : List Bytes} {services : AList fun _ : Bytes => ℤ}
    {name : Bytes} (h : (names.foldl (releaseService fd) services).lookup name = some x) :
    services.lookup name = some x ∧ (name ∈ names → x ≠ fd) := by
  induction names generalizing services with
  | nil => exact ⟨h, by simp⟩
  | cons n names ih =>
    rw [List.foldl_cons] at h
    obtain ⟨hx, hne⟩ := ih h
    rw [releaseService] at hx
    by_cases hfree : services.lookup n = some fd
    · rw [if_pos hfree] at hx
      have hn : name ≠ n := by
        rintro rfl
        rw [AList.lookup_erase] at hx
        cases hx
      rw [AList.lookup_erase_ne hn] at hx
      refine ⟨hx, fun hmem => ?_⟩
      rcases List.mem_cons.mp hmem with rfl | hmem
      · exact absurd rfl hn
      · exact hne hmem
    · rw [if_neg hfree] at hx
      refine ⟨hx, fun hmem => ?_⟩
      rcases List.mem_cons.mp hmem with rfl | hmem
      · rintro rfl
        exact hfree hx
      · exact hne hmem

/-- The record after a leaving owner's transactions are answered for
it. -/
def World.close (w : World σ) (es : List (Σ _ : UInt64, PendingTransaction))
    (fs : List Forward) : List Forward :=
  es.foldl (fun fs e =>
    attach e.1 ⟨w.reached e.2.callerFd, e.2.callerRequestId, ascii "DEAD_OBJECT"⟩ fs) fs

/-- Closing changes the latest request under a closed id, by one
answer. -/
theorem newest_close {es : List (Σ _ : UInt64, PendingTransaction)} (hnd : es.NodupKeys)
    {fs : List Forward} {tid : UInt64} :
    newest (w.close es fs) tid = match es.dlookup tid with
      | none => newest fs tid
      | some p => (newest fs tid).map fun f => { f with
          answers := ⟨w.reached p.callerFd, p.callerRequestId, ascii "DEAD_OBJECT"⟩ ::
            f.answers } := by
  induction es generalizing fs with
  | nil => rfl
  | cons e es ih =>
    obtain ⟨t, p⟩ := e
    rw [List.nodupKeys_cons] at hnd
    simp only [World.close, List.foldl_cons]
    refine (ih hnd.2).trans ?_
    rw [newest_attach]
    by_cases ht : tid = t
    · subst ht
      rw [List.dlookup_cons_eq, List.dlookup_eq_none.mpr hnd.1, if_pos rfl]
    · rw [List.dlookup_cons_ne es ⟨t, p⟩ ht, if_neg ht]

theorem map_tid_close {es : List (Σ _ : UInt64, PendingTransaction)} {fs : List Forward} :
    (w.close es fs).map Forward.tid = fs.map Forward.tid := by
  induction es generalizing fs with
  | nil => rfl
  | cons e es ih =>
    rw [World.close, List.foldl_cons]
    exact ih.trans map_tid_attach

/-- A closed request was there before, or is the latest under a closed id
with the notice added. -/
theorem mem_close {es : List (Σ _ : UInt64, PendingTransaction)} (hnd : es.NodupKeys)
    {fs : List Forward} {g : Forward} (h : g ∈ w.close es fs) :
    g ∈ fs ∨ ∃ e ∈ es, ∃ f, newest fs e.1 = some f ∧ g = { f with
      answers := ⟨w.reached e.2.callerFd, e.2.callerRequestId, ascii "DEAD_OBJECT"⟩ ::
        f.answers } := by
  induction es generalizing fs with
  | nil => exact Or.inl h
  | cons e es ih =>
    rw [List.nodupKeys_cons] at hnd
    rw [World.close, List.foldl_cons] at h
    rcases ih hnd.2 h with hg | ⟨e', he', f, hf, rfl⟩
    · rcases mem_attach hg with hg | ⟨f, hf, rfl⟩
      · exact Or.inl hg
      · exact Or.inr ⟨e, List.mem_cons_self, f, hf, rfl⟩
    · have hne : e'.1 ≠ e.1 := fun heq =>
        hnd.1 (heq ▸ List.mem_keys_of_mem he')
      rw [newest_attach, if_neg hne] at hf
      exact Or.inr ⟨e', List.mem_cons_of_mem _ he', f, hf, rfl⟩

/-- Of the clients, removal takes the one at its index. -/
theorem mem_eraseIdx_of_nodup {α β : Type*} {g : α → β} {l : List α} {i : ℕ} {c x : α}
    (hnd : (l.map g).Nodup) (hc : l[i]? = some c) :
    x ∈ l.eraseIdx i ↔ x ∈ l ∧ g x ≠ g c := by
  rw [List.mem_eraseIdx_iff_getElem?]
  constructor
  · rintro ⟨k, hk, hx⟩
    refine ⟨List.mem_of_getElem? hx, fun heq => hk ?_⟩
    have hk' : (l.map g)[k]? = some (g c) := by rw [List.getElem?_map, hx, ← heq]; rfl
    have hi' : (l.map g)[i]? = some (g c) := by rw [List.getElem?_map, hc]; rfl
    exact (List.getElem?_inj (List.getElem?_eq_some_iff.mp hk').1 hnd).mp (hk'.trans hi'.symm)
  · rintro ⟨hx, hne⟩
    obtain ⟨k, hk⟩ := List.getElem?_of_mem hx
    refine ⟨k, fun hki => hne ?_, hk⟩
    rw [hki, hc] at hk
    rw [Option.some.inj hk]

/-- The transactions that a leaving client's services were asked for. -/
def orphans (d : State σ) (fd : ℤ) : List (Σ _ : UInt64, PendingTransaction) :=
  d.pendingTransactions.entries.filter fun e => e.2.ownerFd = fd

theorem nodupKeys_orphans {d : State σ} {fd : ℤ} : (orphans d fd).NodupKeys :=
  d.pendingTransactions.nodupKeys.sublist List.filter_sublist

theorem mem_orphans {d : State σ} {fd : ℤ} {tid : UInt64} {p : PendingTransaction} :
    p ∈ (orphans d fd).dlookup tid ↔
      d.pendingTransactions.lookup tid = some p ∧ p.ownerFd = fd := by
  rw [List.mem_dlookup_iff nodupKeys_orphans, orphans, List.mem_filter, decide_eq_true_eq,
    ← Option.mem_def, AList.mem_lookup_iff]

section

variable {i : ℕ} {c : Client} {poll : Poll}

theorem forwards_remove : (w.record c poll (removeClient w.daemon i c)).forwards =
    w.close (orphans w.daemon c.fd) w.forwards := by
  change (deadReplies w.daemon c.fd).foldl _ _ = _
  rw [deadReplies, List.foldl_map]
  rfl

variable (hi : w.Inv) (hc : w.daemon.clients[i]? = some c)

include hi hc

theorem mem_clients_remove {x : Client} :
    x ∈ (removeClient w.daemon i c).1.clients ↔ x ∈ w.daemon.clients ∧ x.fd ≠ c.fd :=
  mem_eraseIdx_of_nodup hi.nodup hc

theorem mem_fds_remove {fd : ℤ} :
    fd ∈ (removeClient w.daemon i c).1.fds ↔ fd ∈ w.daemon.fds ∧ fd ≠ c.fd := by
  simp only [State.fds, List.mem_map, mem_clients_remove hi hc]
  constructor
  · rintro ⟨x, ⟨hx, hne⟩, rfl⟩
    exact ⟨⟨x, hx, rfl⟩, hne⟩
  · rintro ⟨⟨x, hx, rfl⟩, hne⟩
    exact ⟨x, ⟨hx, hne⟩, rfl⟩

/-- A service that is left has its owner among those that are left. -/
theorem remove_owned {name : Bytes} {fd : ℤ}
    (h : (removeClient w.daemon i c).1.services.lookup name = some fd) (hfd : 0 ≤ fd) :
    ∃ r ∈ (removeClient w.daemon i c).1.routes, r.1 = fd ∧ name ∈ r.2 := by
  obtain ⟨hold, hne⟩ := lookup_foldl_release h
  obtain ⟨r, hr, hr1, hr2⟩ := hi.owned name fd hold hfd
  obtain ⟨x, hx, rfl⟩ := List.mem_map.mp hr
  refine ⟨x.route, List.mem_map_of_mem ((mem_clients_remove hi hc).mpr ⟨hx, fun heq => ?_⟩), hr1,
    hr2⟩
  -- the descriptor tells the clients apart, so this one is the leaving client
  obtain rfl : x = c := List.inj_on_of_nodup_map hi.nodup hx (List.mem_of_getElem? hc) heq
  exact hne hr2 hr1.symm

/-- A transaction that is left is open still: it is not among those that
were answered. -/
theorem remove_pending {tid : UInt64} {p : PendingTransaction}
    (hp : (removeClient w.daemon i c).1.pendingTransactions.lookup tid = some p) :
    p.callerFd ∈ (removeClient w.daemon i c).1.fds ∧
      p.ownerFd ∈ (removeClient w.daemon i c).1.fds ∧
        ∃ f, (w.record c poll (removeClient w.daemon i c)).Open tid p f := by
  obtain ⟨hold, hkeep⟩ := KeyMap.lookup_retain_eq_some.mp hp
  simp only [Bool.and_eq_true, decide_eq_true_eq] at hkeep
  obtain ⟨hcl, ho, f, hopen⟩ := hi.pending tid p hold
  refine ⟨(mem_fds_remove hi hc).mpr ⟨hcl, hkeep.2⟩, (mem_fds_remove hi hc).mpr ⟨ho, hkeep.1⟩, f,
    ?_, hopen.caller, hopen.owner, hopen.requestId, hopen.unanswered⟩
  have hnone : (orphans w.daemon c.fd).dlookup tid = none := by
    rw [Option.eq_none_iff_forall_not_mem]
    intro q hq
    obtain ⟨hq, hqo⟩ := mem_orphans.mp hq
    obtain rfl : q = p := Option.some.inj (hq.symm.trans hold)
    exact hkeep.1 hqo
  rw [forwards_remove, newest_close nodupKeys_orphans, hnone]
  exact hopen.newest

/-- What is answered for the leaving client had no answer before, and the
client is gone. -/
theorem remove_settled {g : Forward}
    (hg : g ∈ (w.record c poll (removeClient w.daemon i c)).forwards) :
    Settled (w.record c poll (removeClient w.daemon i c)).receipts
      (w.record c poll (removeClient w.daemon i c)).removed g := by
  have hremoved : (w.record c poll (removeClient w.daemon i c)).removed =
      w.connOf c.fd :: w.removed := if_neg fun h => ((mem_fds_remove hi hc).mp h).2 rfl
  rw [forwards_remove] at hg
  rcases mem_close nodupKeys_orphans hg with hg | ⟨⟨tid, p⟩, he, f, hf, rfl⟩
  · exact (hi.settled g hg).mono receipts_subset removed_subset
  · obtain ⟨hlook, hown⟩ := mem_orphans.mp ((List.mem_dlookup_iff nodupKeys_orphans).mpr he)
    obtain ⟨hcl, -, f', hopen⟩ := hi.pending tid p hlook
    obtain rfl : f' = f := Option.some.inj (hopen.newest.symm.trans hf)
    refine ⟨by simp [hopen.unanswered], ?_⟩
    intro a ha
    simp only [hopen.unanswered, List.mem_singleton] at ha
    subst ha
    refine ⟨?_, hopen.requestId, Or.inr ⟨rfl, ?_⟩⟩
    · exact (if_pos hcl).trans (congrArg some hopen.caller)
    · rw [hremoved, ← hopen.owner, hown]
      exact List.mem_cons_self

/-- The latest request of a caller that is left has an answer, or is
pending still. -/
theorem remove_kept {tid : UInt64} {g : Forward}
    (hg : newest (w.record c poll (removeClient w.daemon i c)).forwards tid = some g)
    (hconn : (w.record c poll (removeClient w.daemon i c)).Connected g.caller) :
    g.answers ≠ [] ∨
      ∃ p, (removeClient w.daemon i c).1.pendingTransactions.lookup tid = some p := by
  have hcfd : c.fd ∈ w.daemon.fds := List.mem_map_of_mem (List.mem_of_getElem? hc)
  obtain ⟨x, hx, hxg⟩ := hconn
  obtain ⟨hxold, hxne⟩ := (mem_fds_remove hi hc).mp hx
  rw [forwards_remove, newest_close nodupKeys_orphans] at hg
  cases hlook : (orphans w.daemon c.fd).dlookup tid with
  | some p =>
    rw [hlook] at hg
    obtain ⟨f, -, rfl⟩ := Option.map_eq_some_iff.mp hg
    exact Or.inl (by simp)
  | none =>
    rw [hlook] at hg
    refine (hi.kept tid g hg ⟨x, hxold, hxg⟩).imp_right ?_
    rintro ⟨p, hp⟩
    refine ⟨p, KeyMap.lookup_retain_eq_some.mpr ⟨hp, ?_⟩⟩
    obtain ⟨hcl, -, f, hopen⟩ := hi.pending tid p hp
    have hown : p.ownerFd ≠ c.fd := by
      intro heq
      have := mem_orphans.mpr ⟨hp, heq⟩
      rw [hlook] at this
      cases this
    have hcaller : p.callerFd ≠ c.fd := by
      intro heq
      -- the caller would be the leaving connection, which is no longer open
      obtain rfl : f = g := Option.some.inj (hopen.newest.symm.trans hg)
      rw [← hopen.caller, heq] at hxg
      exact hxne (hi.inj x hxold c.fd hcfd hxg)
    simp [hown, hcaller]

/-- **A client leaves.** -/
theorem remove_inv : (w.record c poll (removeClient w.daemon i c)).Inv where
  nodup := hi.nodup.sublist (List.Sublist.map _ (List.eraseIdx_sublist _ _))
  nonneg fd h := hi.nonneg fd ((mem_fds_remove hi hc).mp h).1
  fresh fd h := hi.fresh fd ((mem_fds_remove hi hc).mp h).1
  inj fd h fd' h' := hi.inj fd ((mem_fds_remove hi hc).mp h).1 fd' ((mem_fds_remove hi hc).mp h').1
  owned _ _ h hfd := remove_owned hi hc h hfd
  registrant name fd h hfd := by
    have hold := (lookup_foldl_release h).1
    have hregistrant : (w.record c poll (removeClient w.daemon i c)).registrant name =
        w.registrant name := if_pos (h.trans hold.symm)
    rw [hregistrant]
    exact hi.registrant name fd hold hfd
  ids := by
    rw [forwards_remove, map_tid_close]
    exact hi.ids
  past g hg := by
    rw [forwards_remove] at hg
    rcases mem_close nodupKeys_orphans hg with hg | ⟨e, -, f, hf, rfl⟩
    · exact hi.past g hg
    · exact hi.past f (mem_of_newest hf)
  pending _ _ hp := remove_pending hi hc hp
  settled _ hg := remove_settled hi hc hg
  kept _ _ hg hconn := remove_kept hi hc hg hconn

end

/-! ## Every run -/

theorem step_inv {desk : Desk σ} {w' : World σ} (hi : w.Inv) (h : Step desk w w') : w'.Inv := by
  cases h with
  | accept fd info hpos hfd => exact accept_inv hi hpos hfd
  | serve i c poll hc =>
    rw [World.serve]
    generalize hr : serveClient desk w.daemon i c poll = r
    have hturn : Turn w.daemon i c poll r := hr ▸ serveClient_turn hi.owned_fds
    cases hturn with
    | quiet hq => exact quiet_inv hi hq
    | register hfree hm _ => exact register_inv hi hc hfree hm
    | forward hreq hlook hpos _ hop hid hans =>
      exact forward_inv hi hc hreq hlook hpos hop hid hans
    | answer hreq hop hlook hown => exact answer_inv hi hc hreq hop hlook hown
    | remove => exact remove_inv hi hc
  | announce =>
    have hq := announce_quiet desk w.daemon
    refine inv_of_frame hi hq.fds rfl rfl hq.pending hq.nextId rfl (List.Subset.refl _)
      (List.Subset.refl _) ?_ hi.registrant
    exact hi.owned

/-- **The invariant holds throughout every run.** -/
theorem reachable_inv {desk : Desk σ} {rest : σ} (h : Reachable desk rest w) : w.Inv := by
  induction h with
  | start => exact start_inv rest
  | step _ hs ih => exact step_inv ih hs

end Daemon

end Muplar
