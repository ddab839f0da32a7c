import Muplar.Daemon.Delivery
import Muplar.Daemon.Run
/-!
# muplard — the service catalog

Built-in names and names clients register share one map, and an entry
says only whose descriptor it is. A name that is not built in is found
exactly while the connection that last registered it is open. A built-in
name is declared at the start, but the declaration is not protected: a
client may register the name, and when that client goes, the entry goes
with it. `catalog_stable_iff` says that nothing else can happen to the
catalog.
-/

namespace Muplar

namespace Daemon

open Machine

variable {σ : Type} {desk : Desk σ}

/-! ## What `CheckService` answers -/

/-- `CheckService` for `name` answers that it exists. -/
def State.Found (d : State σ) (name : Bytes) : Prop :=
  ∀ c h, ∃ m, (checkService d c h name).2 = [m] ∧
    (m.payload = ascii "1" ∨ m.payload = ascii "2")

theorem found_iff {d : State σ} {name : Bytes} :
    d.Found name ↔ ∃ fd, d.services.lookup name = some fd := by
  have hzero : ascii "0" ≠ ascii "1" ∧ ascii "0" ≠ ascii "2" := by decide
  constructor
  · intro h
    obtain ⟨m, hm, hpay⟩ := h { fd := 0 } ⟨0, 0, 0, 0, 0⟩
    cases hlook : d.services.lookup name with
    | some fd => exact ⟨fd, rfl⟩
    | none =>
      simp only [checkService, hlook, List.cons.injEq, and_true] at hm
      subst hm
      rcases hpay with hpay | hpay
      · exact absurd hpay hzero.1
      · exact absurd hpay hzero.2
  · rintro ⟨fd, hfd⟩ c h
    simp only [checkService, hfd]
    refine ⟨_, rfl, ?_⟩
    by_cases hpos : fd ≥ 0
    · exact Or.inr (if_pos hpos)
    · exact Or.inl (if_neg hpos)

/-! ## Who registered a name last -/

/-- The registration an event comes to, where it is a successful one: the
descriptor it came from and the name. -/
def registration (d : State σ) : Event → Option (ℤ × Bytes)
  | .turn i poll => do
    let c ← d.clients[i]?
    let (h, name) ← poll.request
    if Opcode.ofCode h.opcode = some .registerService ∧ available d name then some (c.fd, name)
      else none
  | _ => none

/-- The daemon, and which connection last registered each name. -/
structure Catalog (σ : Type) where
  world : World σ
  registrar : Bytes → Option ℕ

def Catalog.start (rest : σ) : Catalog σ where
  world := World.start rest
  registrar := fun _ => none

def Catalog.next (desk : Desk σ) (k : Catalog σ) (e : Event) : Catalog σ where
  world := k.world.next desk e
  registrar := match registration k.world.daemon e with
    | some (fd, name) => Function.update k.registrar name (some (k.world.connOf fd))
    | none => k.registrar

/-- **A stable catalog.** Every built-in name is found, and any other
exactly while the connection that registered it last is open. -/
structure Catalog.Stable (k : Catalog σ) : Prop where
  builtin : ∀ name ∈ builtinServices, k.world.daemon.Found name
  other : ∀ name ∉ builtinServices,
    k.world.daemon.Found name ↔ ∃ n, k.registrar name = some n ∧ k.world.Connected n

/-! ## What an event does to the catalog -/

theorem handle_keeps {d : State σ} {i : ℕ} {c : Client} {h : Header} {payload : Bytes}
    (hop : Opcode.ofCode h.opcode ≠ some .registerService) :
    (handle desk d i c h payload).1.services = d.services ∧
      (handle desk d i c h payload).1.fds = d.fds := by
  simp only [handle]
  split
  · exact ⟨rfl, rfl⟩
  · exact ⟨rfl, rfl⟩
  · next hreg => exact absurd hreg hop
  · simp only [binderTransact]
    split
    · exact ⟨rfl, rfl⟩
    · split
      · exact ⟨rfl, rfl⟩
      · split <;> exact ⟨rfl, rfl⟩
  · simp only [binderReply]
    split
    · exact ⟨rfl, rfl⟩
    · split <;> exact ⟨rfl, rfl⟩
  · exact ⟨rfl, rfl⟩
  · exact ⟨rfl, rfl⟩
  · exact ⟨rfl, rfl⟩
  · exact ⟨rfl, rfl⟩
  · next hin _ _ _ =>
    exact ⟨(serveDesk_quiet fun heq => hin (heq ▸ rfl)).services,
      (serveDesk_quiet fun heq => hin (heq ▸ rfl)).fds⟩
  · exact ⟨rfl, rfl⟩

/-- **The catalog's three turns**: left alone, one name registered, or
the client gone. -/
theorem serveClient_catalog (desk : Desk σ) {d : State σ} {i : ℕ} {c : Client}
    (hc : d.clients[i]? = some c) (poll : Poll) :
    (registration d (.turn i poll) = none ∧ poll.leaves = false ∧
      (serveClient desk d i c poll).1.services = d.services ∧
      (serveClient desk d i c poll).1.fds = d.fds) ∨
    (∃ name, registration d (.turn i poll) = some (c.fd, name) ∧ poll.leaves = false ∧
      available d name = true ∧
      (serveClient desk d i c poll).1.services = d.services.insert name c.fd ∧
      (serveClient desk d i c poll).1.fds = d.fds) ∨
    (registration d (.turn i poll) = none ∧ poll.leaves = true ∧
      serveClient desk d i c poll = removeClient d i c) := by
  rcases poll.cases with rfl | ⟨h, payload, hreq⟩ | hl
  · exact Or.inl ⟨by simp [registration, hc, Poll.request], rfl, rfl, rfl⟩
  · rw [serveClient_of_request hreq]
    have hstays := Poll.leaves_eq_false hreq
    by_cases hop : Opcode.ofCode h.opcode = some .registerService
    · have hhandle : handle desk d i c h payload = registerService d i c h payload := by
        simp only [handle, hop]
      rw [hhandle]
      by_cases hfree : available d payload = true
      · refine Or.inr (Or.inl ⟨payload, ?_, hstays, hfree, ?_, ?_⟩)
        · simp [registration, hc, hreq, hop, hfree]
        · simp only [registerService, hfree, if_true]
        · simp only [registerService, hfree, if_true, State.fds]
          exact map_modify_of_eq (f := Client.own payload) (fun _ => rfl) d.clients i
      · refine Or.inl ⟨?_, hstays, ?_, ?_⟩
        · simp [registration, hc, hreq, hfree]
        · simp [registerService, hfree]
        · simp [registerService, hfree]
    · exact Or.inl ⟨by simp [registration, hc, hreq, hop], hstays, handle_keeps hop⟩
  · refine Or.inr (Or.inr ⟨?_, hl, serveClient_of_leaves hl⟩)
    simp [registration, hc, Poll.request_of_leaves hl]

/-- An entry that is not the leaving client's stays. -/
theorem lookup_foldl_release_of_ne {fd x : ℤ} {names : List Bytes}
    {services : AList fun _ : Bytes => ℤ} {name : Bytes} (h : services.lookup name = some x)
    (hne : x ≠ fd) : (names.foldl (releaseService fd) services).lookup name = some x := by
  induction names generalizing services with
  | nil => exact h
  | cons n names ih =>
    rw [List.foldl_cons]
    refine ih ?_
    rw [releaseService]
    by_cases hfree : services.lookup n = some fd
    · have hn : name ≠ n := by
        rintro rfl
        exact hne (Option.some.inj (h.symm.trans hfree))
      rw [if_pos hfree, AList.lookup_erase_ne hn]
      exact h
    · rw [if_neg hfree]
      exact h

/-! ## The invariant -/

variable {k : Catalog σ}

/-- What every event keeps: an entry with a descriptor is its last
registrant's, one without is built in, and a registrant that is open
still has its entry. -/
structure Catalog.Core (k : Catalog σ) : Prop where
  inv : k.world.Inv
  entry : ∀ name fd, k.world.daemon.services.lookup name = some fd → 0 ≤ fd →
    k.registrar name = some (k.world.connOf fd)
  declared : ∀ name fd, k.world.daemon.services.lookup name = some fd → fd < 0 →
    name ∈ builtinServices
  kept : ∀ name n, k.registrar name = some n → k.world.Connected n →
    ∃ fd, 0 ≤ fd ∧ k.world.daemon.services.lookup name = some fd ∧ k.world.connOf fd = n
  past : ∀ name n, k.registrar name = some n → n < k.world.accepted

theorem Catalog.Core.other (hk : k.Core) {name : Bytes} (hname : name ∉ builtinServices) :
    k.world.daemon.Found name ↔ ∃ n, k.registrar name = some n ∧ k.world.Connected n := by
  rw [found_iff]
  constructor
  · rintro ⟨fd, hfd⟩
    have hpos : 0 ≤ fd := by
      by_contra hneg
      exact hname (hk.declared name fd hfd (by omega))
    exact ⟨_, hk.entry name fd hfd hpos, fd, hk.inv.owned_fds name fd hfd hpos, rfl⟩
  · rintro ⟨n, hn, hopen⟩
    obtain ⟨fd, -, hfd, -⟩ := hk.kept name n hn hopen
    exact ⟨fd, hfd⟩

theorem Catalog.Core.stable_iff (hk : k.Core) :
    k.Stable ↔ ∀ name ∈ builtinServices, k.world.daemon.Found name :=
  ⟨fun h => h.builtin, fun h => ⟨h, fun _ hname => hk.other hname⟩⟩

theorem core_start (rest : σ) : (Catalog.start rest).Core where
  inv := start_inv rest
  entry name fd h hfd := absurd (builtinServices_lookup h) (by omega)
  declared name fd h _ := by
    rw [← AList.lookup_isSome]
    exact Option.isSome_of_mem h
  kept := by simp [Catalog.start]
  past := by simp [Catalog.start]

theorem core_accept (hk : k.Core) {fd pid uid : ℤ} (h : k.world.daemon.Admits (.accept fd pid uid)) :
    (k.next desk (.accept fd pid uid)).Core := by
  have hinv : (k.next desk (.accept fd pid uid)).world.Inv := hk.inv.next desk h
  have hconn : ∀ x ∈ k.world.daemon.fds, (k.world.accept fd { pid, uid }).connOf x =
      k.world.connOf x := fun x hx => accept_connOf h.2.1 hx
  refine ⟨hinv, ?_, hk.declared, ?_, ?_⟩
  · intro name x hx hpos
    have hold := hk.entry name x hx hpos
    rw [← hconn x (hk.inv.owned_fds name x hx hpos)] at hold
    exact hold
  · rintro name n hn ⟨x, hx, hxn⟩
    have hxold : x ∈ k.world.daemon.fds := by
      change x ∈ (k.world.accept fd { pid, uid }).daemon.fds at hx
      rw [accept_fds, List.mem_append, List.mem_singleton] at hx
      refine hx.resolve_right ?_
      -- the newcomer's number has been given to nobody yet
      rintro rfl
      have hself : (k.world.accept x { pid, uid }).connOf x = n := hxn
      rw [accept_connOf_self] at hself
      have := hk.past name n hn
      omega
    obtain ⟨y, hpos, hy, hyn⟩ := hk.kept name n hn ⟨x, hxold, (hconn x hxold).symm.trans hxn⟩
    exact ⟨y, hpos, hy, (hconn y (hk.inv.owned_fds name y hy hpos)).trans hyn⟩
  · intro name n hn
    have := hk.past name n hn
    change n < k.world.accepted + 1
    omega

/-- A turn that leaves the map and the connections alone. -/
theorem core_of_frame {k' : Catalog σ} (hk : k.Core) (hinv : k'.world.Inv)
    (hserv : k'.world.daemon.services = k.world.daemon.services)
    (hfds : k'.world.daemon.fds = k.world.daemon.fds) (hconn : k'.world.connOf = k.world.connOf)
    (hacc : k'.world.accepted = k.world.accepted) (hreg : k'.registrar = k.registrar) :
    k'.Core where
  inv := hinv
  entry := by rw [hserv, hreg, hconn]; exact hk.entry
  declared := by rw [hserv]; exact hk.declared
  kept name n := by
    simp only [World.Connected]
    rw [hreg, hfds, hconn, hserv]
    exact hk.kept name n
  past := by rw [hreg, hacc]; exact hk.past

/-- A name registered by the client on `fd`. -/
theorem core_of_register {k' : Catalog σ} {fd : ℤ} {name : Bytes} (hk : k.Core)
    (hinv : k'.world.Inv) (hfd : fd ∈ k.world.daemon.fds)
    (hserv : k'.world.daemon.services = k.world.daemon.services.insert name fd)
    (hfds : k'.world.daemon.fds = k.world.daemon.fds) (hconn : k'.world.connOf = k.world.connOf)
    (hacc : k'.world.accepted = k.world.accepted)
    (hreg : k'.registrar = Function.update k.registrar name (some (k.world.connOf fd))) :
    k'.Core := by
  have hpos := hk.inv.nonneg fd hfd
  refine ⟨hinv, ?_, ?_, ?_, ?_⟩
  · intro name' x hx hx0
    rw [hserv] at hx
    rw [hreg, hconn]
    by_cases hn : name' = name
    · subst hn
      rw [AList.lookup_insert] at hx
      rw [Function.update_self, Option.some.inj hx]
    · rw [AList.lookup_insert_ne hn] at hx
      rw [Function.update_of_ne hn]
      exact hk.entry name' x hx hx0
  · intro name' x hx hneg
    rw [hserv] at hx
    by_cases hn : name' = name
    · subst hn
      rw [AList.lookup_insert] at hx
      have := Option.some.inj hx
      omega
    · rw [AList.lookup_insert_ne hn] at hx
      exact hk.declared name' x hx hneg
  · intro name' n hn hopen
    rw [hreg] at hn
    rw [hserv, hconn]
    by_cases hname : name' = name
    · subst hname
      rw [Function.update_self] at hn
      exact ⟨fd, hpos, AList.lookup_insert _, Option.some.inj hn⟩
    · rw [Function.update_of_ne hname] at hn
      simp only [World.Connected, hfds, hconn] at hopen
      rw [AList.lookup_insert_ne hname]
      exact hk.kept name' n hn hopen
  · intro name' n hn
    rw [hreg] at hn
    rw [hacc]
    by_cases hname : name' = name
    · subst hname
      rw [Function.update_self] at hn
      rw [← Option.some.inj hn]
      exact hk.inv.fresh fd hfd
    · rw [Function.update_of_ne hname] at hn
      exact hk.past name' n hn

/-- The client on `fd` gone, with its entries. -/
theorem core_of_remove {k' : Catalog σ} {fd : ℤ} {names : List Bytes} (hk : k.Core)
    (hinv : k'.world.Inv)
    (hserv : k'.world.daemon.services = names.foldl (releaseService fd) k.world.daemon.services)
    (hfds : ∀ x, x ∈ k'.world.daemon.fds ↔ x ∈ k.world.daemon.fds ∧ x ≠ fd)
    (hconn : k'.world.connOf = k.world.connOf)
    (hacc : k'.world.accepted = k.world.accepted) (hreg : k'.registrar = k.registrar) :
    k'.Core := by
  refine ⟨hinv, ?_, ?_, ?_, ?_⟩
  · intro name x hx hpos
    rw [hserv] at hx
    rw [hreg, hconn]
    exact hk.entry name x (lookup_foldl_release hx).1 hpos
  · intro name x hx hneg
    rw [hserv] at hx
    exact hk.declared name x (lookup_foldl_release hx).1 hneg
  · rintro name n hn ⟨x, hx, hxn⟩
    rw [hreg] at hn
    rw [hconn] at hxn
    obtain ⟨hxold, hxne⟩ := (hfds x).mp hx
    obtain ⟨y, hpos, hy, hyn⟩ := hk.kept name n hn ⟨x, hxold, hxn⟩
    -- the registrant is still open, so it is not the one that left
    have hyx : y = x :=
      hk.inv.inj y (hk.inv.owned_fds name y hy hpos) x hxold (hyn.trans hxn.symm)
    rw [hserv, hconn]
    refine ⟨y, hpos, lookup_foldl_release_of_ne hy ?_, hyn⟩
    rw [hyx]
    exact hxne
  · rw [hreg, hacc]
    exact hk.past

theorem fds_removeClient {w : World σ} (hi : w.Inv) {i : ℕ} {c : Client}
    (hc : w.daemon.clients[i]? = some c) (x : ℤ) :
    x ∈ (removeClient w.daemon i c).1.fds ↔ x ∈ w.daemon.fds ∧ x ≠ c.fd := by
  simp only [State.fds, removeClient, List.mem_map, mem_eraseIdx_of_nodup hi.nodup hc]
  constructor
  · rintro ⟨y, ⟨hy, hne⟩, rfl⟩
    exact ⟨⟨y, hy, rfl⟩, hne⟩
  · rintro ⟨⟨y, hy, rfl⟩, hne⟩
    exact ⟨y, ⟨hy, hne⟩, rfl⟩

theorem core_next (hk : k.Core) {e : Event} (h : k.world.daemon.Admits e) :
    (k.next desk e).Core := by
  have hinv : (k.next desk e).world.Inv := hk.inv.next desk h
  cases e with
  | accept fd pid uid => exact core_accept hk h
  | announce => exact core_of_frame hk hinv rfl rfl rfl rfl rfl
  | turn i poll =>
    obtain ⟨hlt, -⟩ : i < k.world.daemon.clients.length ∧ _ := h
    have hc : k.world.daemon.clients[i]? = some k.world.daemon.clients[i] :=
      List.getElem?_eq_getElem hlt
    generalize k.world.daemon.clients[i] = c at hc
    have hfd : c.fd ∈ k.world.daemon.fds := List.mem_map_of_mem (List.mem_of_getElem? hc)
    have hnext : (k.next desk (.turn i poll)).world = k.world.serve desk i c poll := by
      simp only [Catalog.next, World.next, hc]
    have hconn : (k.next desk (.turn i poll)).world.connOf = k.world.connOf := by
      rw [hnext]
      rfl
    have hacc : (k.next desk (.turn i poll)).world.accepted = k.world.accepted := by
      rw [hnext]
      rfl
    have hdaemon : (k.next desk (.turn i poll)).world.daemon =
        (serveClient desk k.world.daemon i c poll).1 := by
      rw [hnext]
      rfl
    rcases serveClient_catalog desk hc poll with
      ⟨hnone, -, hserv, hfds⟩ | ⟨name, hsome, -, -, hserv, hfds⟩ | ⟨hnone, -, hgone⟩
    · rw [← hdaemon] at hserv hfds
      exact core_of_frame hk hinv hserv hfds hconn hacc (by simp only [Catalog.next, hnone])
    · rw [← hdaemon] at hserv hfds
      exact core_of_register hk hinv hfd hserv hfds hconn hacc
        (by simp only [Catalog.next, hsome])
    · have hserv : (k.next desk (.turn i poll)).world.daemon.services =
          c.ownedServices.foldl (releaseService c.fd) k.world.daemon.services := by
        rw [hdaemon, hgone]
        rfl
      refine core_of_remove hk hinv hserv ?_ hconn hacc (by simp only [Catalog.next, hnone])
      rw [hdaemon, hgone]
      exact fds_removeClient hk.inv hc

/-! ## Every run -/

/-- The event does not take a client away while a built-in name is
registered to it. -/
def State.Spares (d : State σ) : Event → Prop
  | .turn i poll => ∀ c, d.clients[i]? = some c → poll.leaves = true →
      ∀ name ∈ builtinServices, d.services.lookup name ≠ some c.fd
  | _ => True

theorem owns_of_entry {w : World σ} (hi : w.Inv) {c : Client} (hc : c ∈ w.daemon.clients)
    {name : Bytes} (h : w.daemon.services.lookup name = some c.fd) : name ∈ c.ownedServices := by
  have hfd : c.fd ∈ w.daemon.fds := List.mem_map_of_mem hc
  obtain ⟨r, hr, hrfd, hname⟩ := hi.owned name c.fd h (hi.nonneg _ hfd)
  obtain ⟨c', hc', rfl⟩ := List.mem_map.mp hr
  have heq : c' = c := List.inj_on_of_nodup_map hi.nodup hc' hc hrfd
  exact heq ▸ hname

/-- One event keeps the built-in names exactly where it spares them. -/
theorem builtin_next_iff (hk : k.Core)
    (hg : ∀ name ∈ builtinServices, k.world.daemon.Found name) {e : Event}
    (h : k.world.daemon.Admits e) :
    (∀ name ∈ builtinServices, (k.next desk e).world.daemon.Found name) ↔
      k.world.daemon.Spares e := by
  simp only [found_iff] at hg ⊢
  cases e with
  | accept fd pid uid => exact ⟨fun _ => trivial, fun _ => hg⟩
  | announce => exact ⟨fun _ => trivial, fun _ => hg⟩
  | turn i poll =>
    obtain ⟨hlt, -⟩ : i < k.world.daemon.clients.length ∧ _ := h
    have hc : k.world.daemon.clients[i]? = some k.world.daemon.clients[i] :=
      List.getElem?_eq_getElem hlt
    generalize k.world.daemon.clients[i] = c at hc
    have hdaemon : (k.next desk (.turn i poll)).world.daemon =
        (serveClient desk k.world.daemon i c poll).1 := by
      simp only [Catalog.next, World.next, hc]
      rfl
    rw [hdaemon]
    rcases serveClient_catalog desk hc poll with
      ⟨-, hstays, hserv, -⟩ | ⟨name, -, hstays, -, hserv, -⟩ | ⟨-, hl, hgone⟩
    · rw [hserv]
      exact ⟨fun _ _ _ hl => absurd (hstays.symm.trans hl) (by simp), fun _ => hg⟩
    · rw [hserv]
      refine ⟨fun _ _ _ hl => absurd (hstays.symm.trans hl) (by simp), fun _ name' hname' => ?_⟩
      by_cases hn : name' = name
      · subst hn
        exact ⟨c.fd, AList.lookup_insert _⟩
      · rw [AList.lookup_insert_ne hn]
        exact hg name' hname'
    · rw [hgone]
      constructor
      · intro hfound c' hc' _ name hname hentry
        obtain rfl : c = c' := Option.some.inj (hc.symm.trans hc')
        obtain ⟨x, hx⟩ := hfound name hname
        obtain ⟨hold, hne⟩ := lookup_foldl_release hx
        have hxc : x = c.fd := Option.some.inj (hold.symm.trans hentry)
        exact hne (owns_of_entry hk.inv (List.mem_of_getElem? hc) hentry) hxc
      · intro hspares name hname
        obtain ⟨x, hx⟩ := hg name hname
        refine ⟨x, lookup_foldl_release_of_ne hx ?_⟩
        rintro rfl
        exact hspares c hc hl name hname hx

/-- A client connects, registers `name` and hangs up. -/
def visit (name : Bytes) : List Event :=
  [.accept 4 1 1, .turn 0 (message 3 1 name), .turn 0 .hangup]

/-- **When the catalog is stable.** In a run of connections, turns and
cycles in any order, the catalog is stable in every state exactly where
no client leaves while a built-in name is registered to it. -/
theorem catalog_stable_iff (desk : Desk σ) (rest : σ) (es : List Event)
    (hm : Meets (Catalog.next desk) (fun k e => k.world.daemon.Admits e) (Catalog.start rest) es) :
    Throughout (Catalog.next desk) Catalog.Stable (Catalog.start rest) es ↔
      Meets (Catalog.next desk) (fun k e => k.world.daemon.Spares e) (Catalog.start rest) es := by
  refine throughout_iff_meets (K := Catalog.Core) (fun k e hk he => core_next hk he) ?_
    (core_start rest) ?_ hm
  · intro k e hk hs he
    rw [(core_next hk he).stable_iff]
    exact builtin_next_iff hk (hk.stable_iff.mp hs) he
  · rw [(core_start rest).stable_iff]
    intro name hname
    rw [found_iff]
    obtain ⟨fd, hfd⟩ := Option.isSome_iff_exists.mp (AList.lookup_isSome.mpr hname)
    exact ⟨fd, hfd⟩

theorem catalog_stable_visit :
    Meets (Catalog.next silentDesk) (fun k e => k.world.daemon.Admits e) (Catalog.start ())
      (visit (ascii "s")) ∧
    Throughout (Catalog.next silentDesk) Catalog.Stable (Catalog.start ()) (visit (ascii "s")) := by
  refine ⟨by decide, (catalog_stable_iff silentDesk () (visit (ascii "s")) (by decide)).mpr
    ⟨trivial, ?_, ?_, trivial⟩⟩
  · intro c _ hl
    cases hl
  · intro c hc _
    obtain rfl : c = { fd := 4, info := { pid := 1, uid := 1 }, ownedServices := [ascii "s"] } :=
      Option.some.inj (hc.symm.trans (by rfl))
    decide

/-- **A built-in name can be lost.** A client registers `activity` and
hangs up, and `CheckService` answers that there is no such service. -/
theorem activity_lost :
    ¬∀ es : List Event,
      Meets (Catalog.next silentDesk) (fun k e => k.world.daemon.Admits e) (Catalog.start ()) es →
        (run (Catalog.next silentDesk) (Catalog.start ()) es).Stable := by
  intro hall
  have hstable := hall (visit (ascii "activity")) (by decide)
  obtain ⟨fd, hfd⟩ := found_iff.mp (hstable.builtin (ascii "activity") (by decide))
  have hgone : (run (Catalog.next silentDesk) (Catalog.start ())
      (visit (ascii "activity"))).world.daemon.services.lookup (ascii "activity") = none := by
    decide
  rw [hgone] at hfd
  cases hfd

end Daemon

end Muplar
