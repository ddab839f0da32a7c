import Muplar.Daemon.Delivery
import Muplar.Daemon.Desk
/-!
# muplard — what a subscriber sees

Device actions and device inputs are two channels of one kind: a request
that is understood replaces the channel's state, counts its generation up
and is announced to every client that subscribed. The daemon handles one
message at a time, and the answer to a subscription is written in the
same turn that sets the flag; so the announcements a subscriber receives
are those of the generations after the one it was answered with, all of
them and in order (`subscribers_see_history`).
-/

namespace Muplar

namespace Daemon

open Machine

variable {F : Floats} {env : Environment}

/-! ## Channels -/

/-- The two streams of changes. -/
inductive Channel
  | actions
  | inputs

namespace Channel

/-- The request that changes the state. -/
def act : Channel → Opcode
  | actions => .deviceAction
  | inputs => .deviceInput

/-- The request that subscribes. -/
def subscribe : Channel → Opcode
  | actions => .subscribeDeviceActions
  | inputs => .subscribeDeviceInputs

/-- The message that announces a change. -/
def notice : Channel → Notice
  | actions => .deviceActionChanged
  | inputs => .deviceInputChanged

/-- The channel's state, as it is told to clients. -/
def text (v : Variables F) : Channel → Bytes
  | actions => deviceStateReply v.deviceState
  | inputs => deviceInputReply v.deviceInputState

/-- Its generation. -/
def generation (v : Variables F) : Channel → UInt64
  | actions => v.deviceState.generation
  | inputs => v.deviceInputState.generation

/-- The payload is understood. -/
def accepts (v : Variables F) (payload : Bytes) : Channel → Bool
  | actions => (applyDeviceAction v.deviceState payload).isSome
  | inputs => (applyDeviceInput v.deviceInputState payload).isSome

end Channel

variable (ch : Channel)

/-- The event changes the channel's state. -/
def Channel.changes (d : State (Variables F)) (e : Event) : Bool :=
  match e.request with
  | some (op, payload) => op = ch.act && ch.accepts d.desk payload
  | none => false

/-- The announcement of a change, to one client. -/
def Channel.announcement (fd : ℤ) (v : Variables F) : Message :=
  { fd, opcode := ch.notice.opcode, requestId := 0, payload := ch.text v, reply := false }

/-- The message announces a change of the channel to `fd`. -/
def Channel.tells (fd : ℤ) (m : Message) : Bool :=
  m.fd = fd && m.opcode = ch.notice.opcode

/-- **The history of a channel**: the daemon's variables right after each
change, in order. -/
def Channel.history (env : Environment) (d : State (Variables F)) :
    List Event → List (Variables F)
  | [] => []
  | e :: es =>
    (if ch.changes d e then [(d.next (desk F env) e).desk] else []) ++
      Channel.history env (d.next (desk F env) e) es

/-- The announcements sent to `fd` along a run. -/
def Channel.received (env : Environment) (fd : ℤ) (d : State (Variables F)) :
    List Event → List Message
  | [] => []
  | e :: es =>
    (d.step (desk F env) e).2.filter (ch.tells fd) ++
      Channel.received env fd (d.next (desk F env) e) es

/-- The client on `fd` does not go in this event. -/
def State.Keeps {σ : Type} (fd : ℤ) (d : State σ) : Event → Prop
  | .turn i poll => ∀ c, d.clients[i]? = some c → c.fd = fd → poll.leaves = false
  | _ => True

/-- The event is a subscription of the client on `fd`. -/
def Channel.Subscribes {σ : Type} (fd : ℤ) (d : State σ) : Event → Prop
  | .turn i poll => ∃ c, d.clients[i]? = some c ∧ c.fd = fd ∧
      ∃ payload, (Event.turn i poll).request = some (ch.subscribe, payload)
  | _ => False

/-! ## One event -/

theorem applyDeviceAction_generation {state state' : DeviceState} {payload : Bytes}
    (h : applyDeviceAction state payload = some state') :
    state'.generation = state.generation + 1 := by
  simp only [applyDeviceAction] at h
  split at h
  · rw [← Option.some.inj h]
  · cases h

theorem applyDeviceInput_generation {state state' : DeviceInputState F} {payload : Bytes}
    (h : applyDeviceInput state payload = some state') :
    state'.generation = state.generation + 1 := by
  simp only [applyDeviceInput] at h
  split at h
  · simp only [Option.bind_eq_bind, Option.bind_eq_some_iff] at h
    obtain ⟨_, -, _, -, _, -, _, -, _, -, _, -, _, -, h⟩ := h
    split at h
    · cases h
    · rw [← Option.some.inj h]
  · cases h

/-- What serving an action that is understood does to its channel. -/
theorem serve_change (env : Environment) {d : State (Variables F)} (info : ClientInfo)
    {payload : Bytes} (h : ch.accepts d.desk payload = true) :
    (serveVariables env d info ch.act payload).notice =
        some (ch.notice, ch.text (serveVariables env d info ch.act payload).desk) ∧
      ch.generation (serveVariables env d info ch.act payload).desk =
        ch.generation d.desk + 1 ∧
      (serveVariables env d info ch.act payload).info = info := by
  cases ch with
  | actions =>
    obtain ⟨state, hs⟩ := Option.isSome_iff_exists.mp h
    refine ⟨?_, ?_, rfl⟩
    · simp only [Channel.act, serveVariables, hs]
      rfl
    · simp only [Channel.act, serveVariables, hs]
      exact applyDeviceAction_generation hs
  | inputs =>
    obtain ⟨state, hs⟩ := Option.isSome_iff_exists.mp h
    refine ⟨?_, ?_, rfl⟩
    · simp only [Channel.act, serveVariables, hs]
      rfl
    · simp only [Channel.act, serveVariables, hs]
      exact applyDeviceInput_generation hs

/-- And what serving anything else does. -/
theorem serve_other (env : Environment) {d : State (Variables F)} (info : ClientInfo) {op : Opcode}
    {payload : Bytes} (h : ¬(op = ch.act ∧ ch.accepts d.desk payload = true)) :
    (∀ n text, (serveVariables env d info op payload).notice = some (n, text) → n ≠ ch.notice) ∧
      ch.generation (serveVariables env d info op payload).desk = ch.generation d.desk ∧
      ((serveVariables env d info op payload).info.subscribed ch.notice = true ↔
        info.subscribed ch.notice = true ∨ op = ch.subscribe) := by
  cases op
  case deviceAction =>
    cases ch with
    | actions =>
      have hnone : applyDeviceAction d.desk.deviceState payload = none := by
        simpa [Channel.act, Channel.accepts] using h
      simp [serveVariables, hnone, Channel.generation, Channel.subscribe]
    | inputs =>
      refine ⟨?_, rfl, by simp [serveVariables, Channel.subscribe]⟩
      intro n text hnotice
      simp only [serveVariables, Option.map_eq_some_iff] at hnotice
      obtain ⟨state, -, heq⟩ := hnotice
      rw [← (Prod.mk.inj heq).1]
      simp [Channel.notice]
  case deviceInput =>
    cases ch with
    | actions =>
      refine ⟨?_, rfl, by simp [serveVariables, Channel.subscribe]⟩
      intro n text hnotice
      simp only [serveVariables, Option.map_eq_some_iff] at hnotice
      obtain ⟨state, -, heq⟩ := hnotice
      rw [← (Prod.mk.inj heq).1]
      simp [Channel.notice]
    | inputs =>
      have hnone : applyDeviceInput d.desk.deviceInputState payload = none := by
        simpa [Channel.act, Channel.accepts] using h
      simp [serveVariables, hnone, Channel.generation, Channel.subscribe]
  case applySurfaceTransaction =>
    simp only [serveVariables]
    split <;> cases ch <;> simp [Channel.generation, Channel.subscribe]
  all_goals
    cases ch <;> simp [serveVariables, Channel.generation, Channel.subscribe, Channel.notice,
      ClientInfo.subscribed]

/-! ## Who is told -/

variable {σ : Type}

/-- The client on `fd` has subscribed. -/
def Channel.subscribed (fd : ℤ) (d : State σ) : Prop :=
  ∃ c ∈ d.clients, c.fd = fd ∧ c.info.subscribed ch.notice = true

theorem filter_fd {clients : List Client} (hnd : (clients.map Client.fd).Nodup) {c : Client}
    (hc : c ∈ clients) : clients.filter (fun c' => c'.fd = c.fd) = [c] := by
  induction clients with
  | nil => cases hc
  | cons a clients ih =>
    rw [List.map_cons, List.nodup_cons] at hnd
    rcases List.mem_cons.mp hc with rfl | hc
    · rw [List.filter_cons_of_pos (by simp), List.filter_eq_nil_iff.mpr]
      intro c' hc'
      rw [decide_eq_true_eq]
      intro heq
      exact hnd.1 (heq ▸ List.mem_map_of_mem hc')
    · have hne : ¬a.fd = c.fd := fun heq => hnd.1 (heq ▸ List.mem_map_of_mem hc)
      rw [List.filter_cons_of_neg (by simpa using hne)]
      exact ih hnd.2 hc

/-- A change is announced once to a client that subscribed, and not to
one that did not. -/
theorem filter_notify {clients : List Client} (hnd : (clients.map Client.fd).Nodup) {c : Client}
    (hc : c ∈ clients) (text : Bytes) :
    (notify clients ch.notice text).filter (ch.tells c.fd) =
      if c.info.subscribed ch.notice then
        [{ fd := c.fd, opcode := ch.notice.opcode, requestId := 0, payload := text, reply := false }]
      else [] := by
  rw [notify, List.filter_map, List.filter_filter]
  have hsplit : clients.filter (fun c' => (ch.tells c.fd ∘ fun client =>
        ({ fd := client.fd, opcode := ch.notice.opcode, requestId := 0, payload := text,
           reply := false } : Message)) c' && c'.info.subscribed ch.notice) =
      (clients.filter fun c' => c'.fd = c.fd).filter fun c' => c'.info.subscribed ch.notice := by
    rw [List.filter_filter]
    congr 1
    funext c'
    simp [Channel.tells, Bool.and_comm]
  rw [hsplit, filter_fd hnd hc]
  by_cases hs : c.info.subscribed ch.notice = true
  · simp [hs]
  · simp [hs]

theorem filter_tells_eq_nil {fd : ℤ} {out : List Message}
    (h : ∀ m ∈ out, m.opcode ≠ ch.notice.opcode) : out.filter (ch.tells fd) = [] := by
  rw [List.filter_eq_nil_iff]
  intro m hm htells
  simp only [Channel.tells, Bool.and_eq_true, decide_eq_true_eq] at htells
  exact h m hm htells.2

theorem notify_opcode {clients : List Client} {n : Notice} {text : Bytes} {m : Message}
    (hm : m ∈ notify clients n text) : m.opcode = n.opcode := by
  simp only [notify, List.mem_map] at hm
  obtain ⟨c, -, rfl⟩ := hm
  rfl

theorem noticeOpcode_inj {n n' : Notice} (h : n.opcode = n'.opcode) : n = n' := by
  cases n <;> cases n' <;> first | rfl | cases h

theorem noticeOpcode_routed (n : Notice) : n.opcode.routed = true := by
  cases n <;> rfl

theorem act_routed : ch.act.routed = false := by
  cases ch <;> rfl

theorem subscribe_routed : ch.subscribe.routed = false := by
  cases ch <;> rfl

theorem act_ne_subscribe : ch.act ≠ ch.subscribe := by
  cases ch <;> simp [Channel.act, Channel.subscribe]

/-! ## One event, for one client -/

section OneEvent

variable {d : State (Variables F)} {e : Event} {c : Client}

theorem changes_eq_false_of_aside
    (h : ∀ op payload, e.request = some (op, payload) → op.routed = true) :
    ch.changes d e = false := by
  rw [Channel.changes]
  cases hreq : e.request with
  | none => rfl
  | some request =>
    obtain ⟨op, payload⟩ := request
    have hne : op ≠ ch.act := by
      rintro rfl
      exact absurd (h _ _ hreq) (by simp [act_routed])
    simp [hne]

theorem request_of_leaves {i : ℕ} {poll : Poll} (hl : poll.leaves = true) :
    (Event.turn i poll).request = none := by
  simp [Event.request, Poll.request_of_leaves hl]

/-- Writing back what a client said already changes nothing. -/
theorem modify_info_self {clients : List Client} {i : ℕ} (hc : clients[i]? = some c) :
    (clients.modify i fun client => { client with info := c.info }) = clients := by
  apply List.ext_getElem?
  intro j
  rw [List.getElem?_modify]
  by_cases hij : i = j
  · subst hij
    rw [hc]
    simp
  · simp [hij]

theorem step_received (hnd : d.fds.Nodup) (hadm : d.Admits e) (hc : c ∈ d.clients) :
    (d.step (desk F env) e).2.filter (ch.tells c.fd) =
      if c.info.subscribed ch.notice && ch.changes d e then
        [ch.announcement c.fd (d.next (desk F env) e).desk]
      else [] := by
  have hdid := step_did (desk F env) hadm
  rw [State.next]
  generalize d.step (desk F env) e = r at hdid
  cases hdid with
  | accepted => simp [Channel.changes, Event.request]
  | announced =>
    have hnil : (announce (desk F env) d).2.filter (ch.tells c.fd) = [] := by
      apply filter_tells_eq_nil
      intro m hm
      simp only [announce] at hm
      split at hm
      · cases hm
      · rw [notify_opcode hm]
        intro heq
        have := noticeOpcode_inj heq
        cases ch <;> cases this
    rw [hnil]
    simp [Channel.changes, Event.request]
  | aside _ hrouted _ hout =>
    rw [changes_eq_false_of_aside ch hrouted, filter_tells_eq_nil ch fun m hm => hout m hm _]
    simp
  | @left i poll c' hc' hl =>
    have hnil : (deadReplies d c'.fd).filter (ch.tells c.fd) = [] := by
      apply filter_tells_eq_nil
      intro m hm
      simp only [deadReplies, List.mem_map] at hm
      obtain ⟨_, -, rfl⟩ := hm
      cases ch <;> simp [Channel.notice, Notice.opcode]
    rw [changes_eq_false_of_aside ch (by simp [request_of_leaves hl]), removeClient, hnil]
    simp
  | @served i poll c' h op payload hc' hreq hcode hdesk =>
    have hreply : op ≠ ch.notice.opcode := by
      rintro rfl
      exact absurd (noticeOpcode_routed ch.notice) (by simp [hdesk])
    have hchanges : ch.changes d (.turn i poll) =
        (decide (op = ch.act) && ch.accepts d.desk payload) := by
      rw [Channel.changes, request_turn hreq hcode]
    rw [hchanges]
    by_cases hact : op = ch.act ∧ ch.accepts d.desk payload = true
    · obtain ⟨rfl, hacc⟩ := hact
      obtain ⟨hnotice, -, hinfo⟩ := serve_change ch env c'.info hacc
      have hinfo : ((desk F env).serve d c'.info ch.act payload).info = c'.info := hinfo
      rw [serveDesk_of_notice (desk F env) hnotice, hinfo, modify_info_self hc',
        List.filter_cons_of_neg (by simp [Channel.tells, hreply])]
      simp only [filter_notify ch hnd hc, hacc, decide_true, Bool.and_true]
      rfl
    · obtain ⟨hnotice, -, -⟩ := serve_other ch env c'.info hact
      have hno : (decide (op = ch.act) && ch.accepts d.desk payload) = false := by
        simpa using hact
      rw [hno, Bool.and_false, if_neg (by simp)]
      cases hserved : (serveVariables env d c'.info op payload).notice with
      | none =>
        rw [serveDesk_of_quiet (desk F env) hserved,
          List.filter_cons_of_neg (by simp [Channel.tells, hreply]), List.filter_nil]
      | some pair =>
        obtain ⟨n, text⟩ := pair
        rw [serveDesk_of_notice (desk F env) hserved,
          List.filter_cons_of_neg (by simp [Channel.tells, hreply])]
        apply filter_tells_eq_nil
        intro m hm
        rw [notify_opcode hm]
        exact fun h => hnotice n text hserved (noticeOpcode_inj h)

theorem step_generation (env : Environment) (hadm : d.Admits e) :
    ch.generation (d.next (desk F env) e).desk =
      if ch.changes d e then ch.generation d.desk + 1 else ch.generation d.desk := by
  have hdid := step_did (desk F env) hadm
  rw [State.next]
  generalize d.step (desk F env) e = r at hdid
  cases hdid with
  | accepted => simp [Channel.changes, Event.request, accept]
  | announced =>
    rw [changes_eq_false_of_aside ch (by simp [Event.request]), if_neg (by simp)]
    simp only [announce, desk, tickVariables]
    split <;> cases ch <;> rfl
  | aside _ hrouted hapart =>
    rw [changes_eq_false_of_aside ch hrouted, if_neg (by simp), hapart.desk]
  | left _ hl =>
    rw [changes_eq_false_of_aside ch (by simp [request_of_leaves hl]), if_neg (by simp)]
    rfl
  | @served i poll c' h op payload hc' hreq hcode hdesk =>
    rw [Channel.changes, request_turn hreq hcode]
    by_cases hact : op = ch.act ∧ ch.accepts d.desk payload = true
    · obtain ⟨rfl, hacc⟩ := hact
      simp only [hacc, decide_true, Bool.and_true, if_true]
      exact (serve_change ch env c'.info hacc).2.1
    · have hno : (decide (op = ch.act) && ch.accepts d.desk payload) = false := by
        simpa using hact
      simp only [hno]
      exact (serve_other ch env c'.info hact).2.1

/-- The client's record after the event: the same connection, subscribed
where it was or where this was its subscription. -/
theorem step_client (env : Environment) (hnd : d.fds.Nodup) (hadm : d.Admits e)
    (hc : c ∈ d.clients) (hkeep : d.Keeps c.fd e) :
    ∃ c' ∈ (d.next (desk F env) e).clients, c'.fd = c.fd ∧
      (c'.info.subscribed ch.notice = true ↔
        c.info.subscribed ch.notice = true ∨ ch.Subscribes c.fd d e) := by
  have hdid := step_did (desk F env) hadm
  rw [State.next]
  generalize d.step (desk F env) e = r at hdid
  cases hdid with
  | accepted =>
    refine ⟨c, List.mem_append_left _ hc, rfl, ?_⟩
    simp [Channel.Subscribes]
  | announced =>
    refine ⟨c, hc, rfl, ?_⟩
    simp [Channel.Subscribes]
  | @aside i poll r _ hrouted hapart =>
    obtain ⟨j, hj⟩ := List.getElem?_of_mem hc
    have hinfo := congrArg (fun l => l[j]?) hapart.infos
    have hfd := congrArg (fun l => l[j]?) hapart.fds
    simp only [State.fds, List.getElem?_map, hj, Option.map_some, Option.map_eq_some_iff] at hinfo hfd
    obtain ⟨c', hc', hinfo⟩ := hinfo
    obtain ⟨c'', hc'', hfd⟩ := hfd
    obtain rfl : c' = c'' := Option.some.inj (hc'.symm.trans hc'')
    refine ⟨c', List.mem_of_getElem? hc', hfd, ?_⟩
    rw [hinfo]
    refine ⟨Or.inl, fun h => h.resolve_right ?_⟩
    rintro ⟨_, -, -, payload, hreq⟩
    exact absurd (hrouted _ _ hreq) (by simp [subscribe_routed])
  | @left i poll c₁ hc₁ hl =>
    have hne : c.fd ≠ c₁.fd := by
      intro heq
      exact absurd ((hkeep c₁ hc₁ heq.symm).symm.trans hl) (by simp)
    refine ⟨c, (mem_eraseIdx_of_nodup hnd hc₁).mpr ⟨hc, hne⟩, rfl, ?_⟩
    refine ⟨Or.inl, fun h => h.resolve_right ?_⟩
    rintro ⟨_, -, -, payload, hreq⟩
    rw [request_of_leaves hl] at hreq
    cases hreq
  | @served i poll c₁ h op payload hc₁ hreq hcode hdesk =>
    obtain ⟨j, hj⟩ := List.getElem?_of_mem hc
    have hsub : ch.Subscribes c.fd d (.turn i poll) ↔ c₁.fd = c.fd ∧ op = ch.subscribe := by
      constructor
      · rintro ⟨c₂, hc₂, hfd, payload', hreq'⟩
        obtain rfl : c₁ = c₂ := Option.some.inj (hc₁.symm.trans hc₂)
        rw [request_turn hreq hcode] at hreq'
        exact ⟨hfd, (Prod.mk.inj (Option.some.inj hreq')).1⟩
      · rintro ⟨hfd, rfl⟩
        exact ⟨c₁, hc₁, hfd, payload, request_turn hreq hcode⟩
    rw [hsub]
    by_cases hij : i = j
    · subst hij
      obtain rfl : c₁ = c := Option.some.inj (hc₁.symm.trans hj)
      refine ⟨{ c₁ with info := ((desk F env).serve d c₁.info op payload).info }, ?_, rfl, ?_⟩
      · refine List.mem_of_getElem? (i := i) ?_
        simp only [serveDesk, List.getElem?_modify, hc₁]
        simp
      · by_cases hact : op = ch.act ∧ ch.accepts d.desk payload = true
        · obtain ⟨rfl, hacc⟩ := hact
          change (serveVariables env d c₁.info ch.act payload).info.subscribed _ = true ↔ _
          rw [(serve_change ch env c₁.info hacc).2.2]
          simp [act_ne_subscribe]
        · have hinfo := (serve_other ch env c₁.info hact).2.2
          refine hinfo.trans ?_
          simp
    · refine ⟨c, List.mem_of_getElem? (i := j) ?_, rfl, ?_⟩
      · simp only [serveDesk, List.getElem?_modify, hj]
        simp [hij]
      · refine ⟨Or.inl, fun h => h.resolve_right ?_⟩
        rintro ⟨hfd, -⟩
        -- one descriptor, so one index
        have hi' : d.fds[i]? = some c.fd := by rw [State.fds, List.getElem?_map, hc₁, ← hfd]; rfl
        have hj' : d.fds[j]? = some c.fd := by rw [State.fds, List.getElem?_map, hj]; rfl
        exact hij ((List.getElem?_inj (List.getElem?_eq_some_iff.mp hi').1 hnd).mp
          (hi'.trans hj'.symm))

end OneEvent

/-! ## Every run -/

section EveryRun

variable {d : State (Variables F)} {es : List Event} {c : Client}

/-- The generations of a history count up from where it starts, and the
last one is the daemon's. -/
theorem history_generation
    (hm : Meets (State.next (desk F env)) State.Admits d es) :
    (∀ (k : ℕ) v, (ch.history env d es)[k]? = some v →
      ch.generation v = ch.generation d.desk + UInt64.ofNat (k + 1)) ∧
    ch.generation (run (State.next (desk F env)) d es).desk =
      ch.generation d.desk + UInt64.ofNat (ch.history env d es).length := by
  induction es generalizing d with
  | nil => exact ⟨by simp [Channel.history], by simp [Channel.history]⟩
  | cons e es ih =>
    obtain ⟨hids, hlast⟩ := ih hm.2
    have hgen := step_generation ch env hm.1
    rw [Channel.history, run_cons, hlast]
    by_cases hch : ch.changes d e = true
    · rw [if_pos hch] at hgen
      simp only [if_pos hch, List.singleton_append]
      constructor
      · intro k v hk
        cases k with
        | zero =>
          obtain rfl := Option.some.inj hk
          exact hgen
        | succ k =>
          rw [hids k v hk, hgen, UInt64.add_assoc, UInt64.ofNat_add k 1, UInt64.ofNat_add (k + 1) 1,
            UInt64.ofNat_add k 1]
          rw [UInt64.add_comm (UInt64.ofNat k + UInt64.ofNat 1) (UInt64.ofNat 1)]
          rfl
      · rw [hgen, List.length_cons, UInt64.ofNat_add, UInt64.add_assoc,
          UInt64.add_comm (UInt64.ofNat _) (UInt64.ofNat 1)]
        rfl
    · rw [if_neg hch] at hgen
      simp only [if_neg hch, List.nil_append]
      rw [hgen] at hids ⊢
      exact ⟨hids, rfl⟩

/-- A subscriber that stays receives the history. -/
theorem received_of_subscribed (hnd : d.fds.Nodup)
    (hm : Meets (State.next (desk F env)) State.Admits d es) (hc : c ∈ d.clients)
    (hsub : c.info.subscribed ch.notice = true)
    (hstay : Meets (State.next (desk F env)) (State.Keeps c.fd) d es) :
    ch.received env c.fd d es = (ch.history env d es).map (ch.announcement c.fd) := by
  induction es generalizing d c with
  | nil => rfl
  | cons e es ih =>
    obtain ⟨c', hc', hfd, hsub'⟩ := step_client ch env hnd hm.1 hc hstay.1
    have hrest := ih (nodup_next _ hnd hm.1) hm.2 hc' (hsub'.mpr (Or.inl hsub)) (hfd ▸ hstay.2)
    rw [hfd] at hrest
    rw [Channel.received, Channel.history, step_received ch hnd hm.1 hc, hsub, hrest,
      List.map_append]
    congr 1
    by_cases hch : ch.changes d e = true
    · simp [hch]
    · simp [hch]

/-- One that never subscribed receives nothing. -/
theorem received_of_not_subscribed (hnd : d.fds.Nodup)
    (hm : Meets (State.next (desk F env)) State.Admits d es) (hc : c ∈ d.clients)
    (hsub : ¬c.info.subscribed ch.notice = true)
    (hstay : Meets (State.next (desk F env))
      (fun d e => d.Keeps c.fd e ∧ ¬ch.Subscribes c.fd d e) d es) :
    ch.received env c.fd d es = [] := by
  induction es generalizing d c with
  | nil => rfl
  | cons e es ih =>
    obtain ⟨c', hc', hfd, hsub'⟩ := step_client ch env hnd hm.1 hc hstay.1.1
    have hnot : ¬c'.info.subscribed ch.notice = true := by
      rw [hsub']
      rintro (h | h)
      · exact hsub h
      · exact hstay.1.2 h
    have hrest := ih (nodup_next _ hnd hm.1) hm.2 hc' hnot (hfd ▸ hstay.2)
    rw [hfd] at hrest
    rw [Channel.received, hrest, step_received ch hnd hm.1 hc]
    simp [hsub]

end EveryRun

/-- **Subscribers see a history without gaps.** Take any run, and let a
client subscribe in the state it ends in. The subscription is answered
with the channel's state, at some generation `g`; and in every
continuation in which the client stays, the announcements it receives are
the channel's history from there, one for each change and in order, with
the generations `g + 1`, `g + 2` and so on up to the daemon's own. A
client that has not subscribed since it connected receives none. -/
theorem subscribers_see_history (F : Floats) (env : Environment) (loaded : Settings)
    (stamp : UInt64) (ch : Channel) (before : List Event)
    (hm : Possible F env loaded stamp before) :
    (∀ (i : ℕ) (poll : Poll) (c : Client) (h : Header) (payload : Bytes) (after : List Event),
      let d := stateAfter F env loaded stamp before
      let d' := d.next (desk F env) (.turn i poll)
      d.clients[i]? = some c → poll.request = some (h, payload) → poll.Exact →
      Opcode.ofCode h.opcode = some ch.subscribe →
      Meets (State.next (desk F env)) State.Admits d' after →
      Meets (State.next (desk F env)) (State.Keeps c.fd) d' after →
      (d.step (desk F env) (.turn i poll)).2 =
        [{ fd := c.fd, opcode := ch.subscribe, requestId := h.requestId,
           payload := ch.text d.desk }] ∧
      ch.received env c.fd d' after = (ch.history env d' after).map (ch.announcement c.fd) ∧
      (∀ (k : ℕ) v, (ch.history env d' after)[k]? = some v →
        ch.generation v = ch.generation d.desk + UInt64.ofNat (k + 1)) ∧
      ch.generation (run (State.next (desk F env)) d' after).desk =
        ch.generation d.desk + UInt64.ofNat (ch.history env d' after).length) ∧
    (∀ (fd pid uid : ℤ) (after : List Event),
      let d := stateAfter F env loaded stamp before
      let d' := d.next (desk F env) (.accept fd pid uid)
      d.Admits (.accept fd pid uid) →
      Meets (State.next (desk F env)) State.Admits d' after →
      Meets (State.next (desk F env)) (fun d e => d.Keeps fd e ∧ ¬ch.Subscribes fd d e) d' after →
      ch.received env fd d' after = []) := by
  have hnd := hm.nodup
  generalize stateAfter F env loaded stamp before = d at hnd
  constructor
  · intro i poll c h payload after _ d' hc hreq hexact hcode hafter hstay
    change d.clients[i]? = some c at hc
    have hadm : d.Admits (.turn i poll) := ⟨(List.getElem?_eq_some_iff.mp hc).1, hexact⟩
    have hstep : d.step (desk F env) (.turn i poll) =
        serveDesk (desk F env) d i c h ch.subscribe payload := by
      simp only [State.step, hc]
      rw [serveClient_of_request hreq, handle_of_desk hcode (subscribe_routed ch)]
    have hkeep : d.Keeps c.fd (.turn i poll) := fun _ _ _ => Poll.leaves_eq_false hreq
    obtain ⟨c', hc', hfd, hsub⟩ :=
      step_client ch env hnd hadm (List.mem_of_getElem? hc) hkeep
    have hsub' : c'.info.subscribed ch.notice = true :=
      hsub.mpr (Or.inr ⟨c, hc, rfl, payload, request_turn hreq hcode⟩)
    have hsame : ch.generation d'.desk = ch.generation d.desk := by
      rw [step_generation ch env hadm, if_neg]
      rw [Channel.changes, request_turn hreq hcode]
      simp [(act_ne_subscribe ch).symm]
    obtain ⟨hids, hlast⟩ := history_generation ch hafter
    rw [hsame] at hids hlast
    have hreceived := received_of_subscribed ch (nodup_next _ hnd hadm) hafter hc' hsub'
      (hfd ▸ hstay)
    rw [hfd] at hreceived
    refine ⟨?_, hreceived, hids, hlast⟩
    rw [hstep]
    cases ch <;> rfl
  · intro fd pid uid after _ d' hadm hafter hstay
    exact received_of_not_subscribed (c := { fd, info := { pid, uid } }) ch
      (nodup_next _ hnd hadm) hafter (List.mem_append_right _ (List.mem_singleton.mpr rfl))
      (by cases ch <;> simp [ClientInfo.subscribed, Channel.notice]) hstay

/-- A client that subscribes to actions at the start is told of the first
one, and of no other. -/
theorem subscribers_see_first_action :
    Channel.actions.received stillness 4
        ((stateAfter wholeNumbers stillness ∅ 0 [.accept 4 1 1]).next
          (desk wholeNumbers stillness) (.turn 0 (message 25 7 [])))
        [.turn 0 (message 23 8 (ascii "back\ntab"))] =
      [{ fd := 4, opcode := .deviceActionChanged, requestId := 0, reply := false
         payload := deviceStateReply
          { generation := 1, action := ascii "back", tab := ascii "tab" } }] := by
  have h := (subscribers_see_history wholeNumbers stillness ∅ 0 .actions [.accept 4 1 1]
    (by decide)).1 0 (message 25 7 []) { fd := 4, info := { pid := 1, uid := 1 } }
    ⟨kProtocolMagic, kProtocolVersion, 25, 0, 7⟩ [] [.turn 0 (message 23 8 (ascii "back\ntab"))]
    (by rfl) (by decide) (by decide) (by decide) (by decide) ⟨fun _ _ _ => by decide, trivial⟩
  rw [h.2.1]
  rfl

end Daemon

end Muplar
