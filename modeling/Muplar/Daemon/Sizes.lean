import Muplar.Daemon.History
/-!
# muplard — whether a message fits

A message of more than `kMaxPayloadSize` bytes costs its sender the
connection, in the daemon as in its clients. What the daemon forwards has
been bounded on receipt, and most answers are a word or a number; but some
are put together from what earlier requests stored, with labels and a
generation around it, and nothing bounds those. `messages_acceptable_iff`
names them: every message of a run is acceptable exactly where each such
answer, as its parts add up, has room when it is asked for.
-/

namespace Muplar

namespace Daemon

open Machine

variable {F : Floats} {env : Environment}

/-! ## What a peer takes -/

/-- `header.payload_size` as `send_message` writes it. -/
def Message.payloadSize (m : Message) : UInt32 :=
  UInt32.ofNat m.payload.length

/-- `receive_message` and `MuplardClient::request` take the message: the
header says how much follows, and that is no more than they accept. -/
def Message.Acceptable (m : Message) : Prop :=
  m.payloadSize.toNat = m.payload.length ∧ m.payloadSize ≤ kMaxPayloadSize

/-- So many bytes have room in a message. -/
def Fits (n : ℕ) : Prop :=
  n ≤ kMaxPayloadSize.toNat

theorem acceptable_iff {m : Message} : m.Acceptable ↔ Fits m.payload.length := by
  have hmax : kMaxPayloadSize.toNat = 1048576 := rfl
  rw [Message.Acceptable, Fits, Message.payloadSize, UInt32.le_iff_toNat_le, UInt32.toNat_ofNat',
    hmax]
  constructor
  · rintro ⟨heq, hle⟩
    omega
  · intro hle
    have hmod : m.payload.length % 2 ^ 32 = m.payload.length := Nat.mod_eq_of_lt (by omega)
    rw [hmod]
    exact ⟨rfl, hle⟩

theorem fits_of_le {n k : ℕ} (h : n ≤ k) (hk : k ≤ 1048576) : Fits n := by
  have hmax : kMaxPayloadSize.toNat = 1048576 := rfl
  rw [Fits, hmax]
  omega

/-! ## How long the answers are -/

/-- The digits of a number. -/
def digits (n : ℕ) : ℕ :=
  (decimal n).length

/-- And of a signed one, with its sign. -/
def digitsInt (z : ℤ) : ℕ :=
  (decimalInt z).length

def DeviceState.size (s : DeviceState) : ℕ :=
  61 + digits s.generation.toNat + s.action.length + s.tab.length + s.apk.length +
    s.packageName.length + s.activity.length + s.application.length

def DeviceInputState.size (s : DeviceInputState F) : ℕ :=
  63 + digits s.generation.toNat + s.tab.length + digitsInt s.type + digitsInt s.action +
    digitsInt s.source + digitsInt s.deviceId + digitsInt s.keyCode +
    (F.toString s.x).length + (F.toString s.y).length

def TabFinishedState.size (s : TabFinishedState) : ℕ :=
  16 + digits s.generation.toNat + s.tab.length

/-- Names one a line: their lengths, and a newline between two. -/
def namesSize (services : AList fun _ : Bytes => ℤ) : ℕ :=
  (services.keys.map List.length).sum + (services.keys.length - 1)

def serviceStateSize (env : Environment) (services : AList fun _ : Bytes => ℤ) (uptime : Int64) :
    ℕ :=
  61 + digits env.pid.toNat + digitsInt uptime.toInt + digits services.keys.length +
    namesSize services

def taskSize (info : ClientInfo) : ℕ :=
  3 + info.appPackage.length + info.appActivity.length + digitsInt info.pid + digitsInt info.uid

/-- The tasks of the clients that run an app, one a line. -/
def tasksSize (clients : List Client) : ℕ :=
  let tasks := (clients.map Client.info).filter fun info => !info.appPackage.isEmpty
  (tasks.map taskSize).sum + (tasks.length - 1)

def surfaceSize (e : Σ _ : UInt64, SurfaceState F) : ℕ :=
  9 + digits e.1.toNat + e.2.name.length + digitsInt e.2.layer + (if e.2.visible then 7 else 6) +
    (F.toString e.2.alpha).length + (F.toString e.2.x).length + (F.toString e.2.y).length +
    digitsInt e.2.cropWidth + digitsInt e.2.cropHeight

def surfacesSize (surfaces : Surfaces F) (generation : UInt64) : ℕ :=
  11 + digits generation.toNat + (surfaces.entries.map surfaceSize).sum

theorem length_deviceStateReply (s : DeviceState) : (deviceStateReply s).length = s.size := by
  have hlabels : (ascii "generation=").length = 11 ∧ (ascii "\naction=").length = 8 ∧
      (ascii "\ntab=").length = 5 ∧ (ascii "\napk=").length = 5 ∧
      (ascii "\npackage=").length = 9 ∧ (ascii "\nactivity=").length = 10 ∧
      (ascii "\napplication=").length = 13 := by decide
  simp only [deviceStateReply, DeviceState.size, digits, List.length_append]
  omega

theorem length_deviceInputReply (s : DeviceInputState F) :
    (deviceInputReply s).length = s.size := by
  have hlabels : (ascii "generation=").length = 11 ∧ (ascii "\ntab=").length = 5 ∧
      (ascii "\ntype=").length = 6 ∧ (ascii "\naction=").length = 8 ∧
      (ascii "\nsource=").length = 8 ∧ (ascii "\ndeviceId=").length = 10 ∧
      (ascii "\nkeyCode=").length = 9 ∧ (ascii "\nx=").length = 3 ∧
      (ascii "\ny=").length = 3 := by decide
  simp only [deviceInputReply, DeviceInputState.size, digits, digitsInt, List.length_append]
  omega

theorem length_tabFinishedReply (s : TabFinishedState) :
    (tabFinishedReply s).length = s.size := by
  have hlabels : (ascii "generation=").length = 11 ∧ (ascii "\ntab=").length = 5 := by decide
  simp only [tabFinishedReply, TabFinishedState.size, digits, List.length_append]
  omega

theorem length_lines (lines : List Bytes) (sep : UInt8) :
    (lines.intersperse [sep]).flatten.length =
      (lines.map List.length).sum + (lines.length - 1) := by
  induction lines with
  | nil => rfl
  | cons line lines ih =>
    cases lines with
    | nil => simp
    | cons line' lines =>
      rw [List.intersperse_cons_cons, List.flatten_cons, List.flatten_cons, List.length_append,
        List.length_append, ih]
      simp only [List.map_cons, List.sum_cons, List.length_cons, List.length_nil]
      omega

theorem length_serviceList (services : AList fun _ : Bytes => ℤ) :
    (serviceList services).length = namesSize services := by
  have hperm := List.mergeSort_perm services.keys fun a b => decide (a ≤ b)
  rw [serviceList, length_lines, (hperm.map List.length).sum_nat, hperm.length_eq, namesSize]

theorem length_frameworkServiceState (services : AList fun _ : Bytes => ℤ) (uptime : Int64) :
    (frameworkServiceState services env.pid uptime).length =
      serviceStateSize env services uptime := by
  have hlabels : (ascii "state=ready\ngeneration=").length = 23 ∧
      (ascii "\nuptimeMillis=").length = 14 ∧ (ascii "\nservices=").length = 10 ∧
      (ascii "\nserviceNames=").length = 14 := by decide
  simp only [frameworkServiceState, serviceStateSize, digits, digitsInt, List.length_append,
    length_serviceList]
  omega

theorem length_queryTasks (clients : List Client) :
    (queryTasks clients).length = tasksSize clients := by
  have htab : (ascii "\t").length = 1 := by decide
  have hline : (List.length ∘ taskLine) = taskSize := by
    funext info
    simp only [Function.comp_apply, taskLine, taskSize, digitsInt, List.length_append]
    omega
  rw [queryTasks, length_lines, List.map_map, hline, List.length_map, tasksSize]

theorem length_surfaceList (surfaces : Surfaces F) (generation : UInt64) :
    (surfaceList surfaces generation).length = surfacesSize surfaces generation := by
  have hlabels : (ascii "generation=").length = 11 ∧ (ascii "\n").length = 1 ∧
      (ascii "\t").length = 1 ∧ (ascii "visible").length = 7 ∧ (ascii "hidden").length = 6 ∧
      (ascii ",").length = 1 ∧ (ascii "x").length = 1 := by decide
  have hline : (List.length ∘ fun e : Σ _ : UInt64, SurfaceState F => surfaceLine e.1 e.2) =
      surfaceSize := by
    funext e
    simp only [Function.comp_apply, surfaceLine, surfaceSize, digits, digitsInt,
      List.length_append]
    split <;> omega
  have hsum := ((List.mergeSort_perm surfaces.entries surfaceBefore).map surfaceSize).sum_nat
  rw [surfaceList, List.length_append, List.length_append, List.length_flatten, List.map_map,
    hline, hsum, surfacesSize, digits]
  omega

/-! ## Where there is room -/

/-- **The requests whose answers are put together from what is stored**,
and when there is room for the answer. A change of a channel is told only
where somebody subscribed. -/
def requestRoom (env : Environment) (d : State (Variables F)) : Opcode × Bytes → Prop
  | (.listServices, _) => Fits (namesSize d.services)
  | (.serviceState, _) =>
    Fits (serviceStateSize env d.services (env.outside d.desk.looks).uptime)
  | (.queryPackages, _) =>
    ∀ file, (env.outside d.desk.looks).registry = some file → Fits file.length
  | (.queryTasks, _) => Fits (tasksSize d.clients)
  | (.getSetting, key) => ∀ value, d.desk.settings.lookup key = some value → Fits value.length
  | (.queryUsers, _) => ∀ users, d.desk.settings.lookup usersKey = some users → Fits users.length
  | (.querySurfaces, _) => Fits (surfacesSize d.desk.surfaces d.desk.surfaceGeneration)
  | (.subscribeDeviceActions, _) => Fits d.desk.deviceState.size
  | (.queryDeviceState, _) => Fits d.desk.deviceState.size
  | (.subscribeDeviceInputs, _) => Fits d.desk.deviceInputState.size
  | (.deviceAction, payload) => ∀ state,
    applyDeviceAction d.desk.deviceState payload = some state →
      (∃ c ∈ d.clients, c.info.subscribed .deviceActionChanged = true) → Fits state.size
  | (.deviceInput, payload) => ∀ state,
    applyDeviceInput d.desk.deviceInputState payload = some state →
      (∃ c ∈ d.clients, c.info.subscribed .deviceInputChanged = true) → Fits state.size
  | (.queryTabFinished, _) => Fits d.desk.tabFinishedState.size
  | _ => True

/-- There is room for what the event asks for. -/
def State.Roomy (env : Environment) (d : State (Variables F)) (e : Event) : Prop :=
  ∀ request, e.request = some request → requestRoom env d request

/-! ## Answers that always fit -/

theorem fits_decimal (x : UInt64) : Fits (decimal x.toNat).length :=
  fits_of_le (length_decimal_word x) (by decide)

theorem length_decimalInt_le {z : ℤ} {k : ℕ} (hk : 0 < k) (h : z.natAbs < 10 ^ k) :
    (decimalInt z).length ≤ k + 1 := by
  cases z with
  | ofNat n =>
    have := length_decimal_le hk (show n < 10 ^ k from h)
    rw [decimalInt]
    omega
  | negSucc n =>
    have := length_decimal_le hk (show n + 1 < 10 ^ k from h)
    rw [decimalInt, List.length_cons]
    omega

theorem fits_int64 (x : Int64) : Fits (decimalInt x.toInt).length := by
  have hlow := x.le_toInt
  have hhigh := x.toInt_lt
  exact fits_of_le (length_decimalInt_le (k := 19) (by decide) (by omega)) (by decide)

theorem fits_peer {info : ClientInfo} (h : info.Peer) :
    Fits (ascii "pid=" ++ decimalInt info.pid ++ ascii "\nuid=" ++ decimalInt info.uid).length := by
  obtain ⟨hlow, hhigh, huid, huid'⟩ := h
  have hlabels : (ascii "pid=").length = 4 ∧ (ascii "\nuid=").length = 5 := by decide
  have hp := length_decimalInt_le (z := info.pid) (k := 10) (by decide) (by omega)
  have hu := length_decimalInt_le (z := info.uid) (k := 10) (by decide) (by omega)
  simp only [List.length_append]
  exact fits_of_le (k := 31) (by omega) (by decide)

theorem fits_generationReply {α : Type} (generation : α → UInt64) (state : Option α) :
    Fits (generationReply generation state).length := by
  cases state with
  | none =>
    rw [generationReply]
    exact fits_of_le (k := 1) (by decide) (by decide)
  | some state => exact fits_decimal _

/-- An answer of one or two bytes. -/
theorem fits_word {reply : Bytes} (h : reply ∈ [ascii "0", ascii "1", ascii "-1", ascii "pong"]) :
    Fits reply.length := by
  have hall : ∀ reply ∈ [ascii "0", ascii "1", ascii "-1", ascii "pong"], reply.length ≤ 4 := by
    decide
  exact fits_of_le (hall reply h) (by decide)

theorem putSetting_reply (settings : Settings) (saved : Bool) (payload : Bytes) :
    (putSetting settings saved payload).2 ∈ [ascii "0", ascii "1", ascii "-1", ascii "pong"] := by
  simp only [putSetting]
  split
  · split <;> simp
  · simp

theorem setPermission_reply (settings : Settings) (saved : Bool) (payload : Bytes) :
    (setPermission settings saved payload).2 ∈
      [ascii "0", ascii "1", ascii "-1", ascii "pong"] := by
  simp only [setPermission]
  split
  · split <;> simp
  · simp

/-! ## One request at the desk -/

section Serve

variable {d : State (Variables F)} {info : ClientInfo} {op : Opcode} {payload : Bytes}

/-- The answer and the announcement of a request both fit. -/
def replyFits (d : State (Variables F)) (r : DeskReply (Variables F)) : Prop :=
  Fits r.reply.length ∧ ∀ n text, r.notice = some (n, text) →
    (∃ c ∈ d.clients, c.info.subscribed n = true) → Fits text.length

theorem replyFits_of_no_notice {r : DeskReply (Variables F)} (h : r.notice = none) :
    replyFits d r ↔ Fits r.reply.length := by
  rw [replyFits, h]
  simp

theorem getD_fits_iff {o : Option Bytes} {word : Bytes} (hword : Fits word.length) :
    Fits (o.getD word).length ↔ ∀ text, o = some text → Fits text.length := by
  cases o with
  | none => simp [hword]
  | some text => simp

/-- A request whose answer always fits, and announces nothing. -/
theorem fits_always {r : DeskReply (Variables F)} (hnotice : r.notice = none)
    (h : Fits r.reply.length) : replyFits d r ↔ True := by
  rw [replyFits_of_no_notice hnotice]
  exact iff_true_intro h

/-- A request that changes a channel: the answer fits, the announcement
has to. -/
theorem fits_change {r : DeskReply (Variables F)} {α : Type} {applied : Option α} {n : Notice}
    {text : α → Bytes} {size : α → ℕ} (hreply : Fits r.reply.length)
    (hnotice : r.notice = applied.map fun state => (n, text state))
    (hsize : ∀ state, (text state).length = size state) :
    replyFits d r ↔ ∀ state, applied = some state →
      (∃ c ∈ d.clients, c.info.subscribed n = true) → Fits (size state) := by
  constructor
  · rintro ⟨-, h⟩ state hstate hsub
    rw [← hsize]
    exact h n (text state) (by rw [hnotice, hstate]; rfl) hsub
  · intro h
    refine ⟨hreply, fun n' text' heq hsub => ?_⟩
    rw [hnotice] at heq
    obtain ⟨state, hstate, hpair⟩ := Option.map_eq_some_iff.mp heq
    obtain ⟨rfl, rfl⟩ := Prod.mk.inj hpair
    rw [hsize]
    exact h state hstate hsub

/-- **What is asked at the desk has room, or it does not fit.** -/
theorem serve_fits_iff (hpeer : info.Peer) (hdesk : op.routed = false) :
    replyFits d (serveVariables env d info op payload) ↔ requestRoom env d (op, payload) := by
  cases op <;> try cases hdesk
  case ping => exact fits_always rfl (fits_word (by simp [serveVariables]))
  case subscribePackages => exact fits_always rfl (fits_decimal _)
  case clientInfo => exact fits_always rfl (fits_peer hpeer)
  case queryPackages =>
    rw [replyFits_of_no_notice rfl]
    exact getD_fits_iff (fits_of_le (k := 8) (by decide) (by decide))
  case appSession =>
    refine fits_always rfl (fits_word ?_)
    simp only [serveVariables]
    split <;> simp
  case queryTasks =>
    rw [replyFits_of_no_notice rfl, requestRoom, ← length_queryTasks]
    exact Iff.rfl
  case fdEcho =>
    refine fits_always rfl ?_
    refine (getD_fits_iff (fits_of_le (k := 2) (by decide) (by decide))).mpr ?_
    intro text htext
    obtain ⟨size, -, rfl⟩ := Option.map_eq_some_iff.mp htext
    exact fits_int64 size
  case getSetting =>
    rw [replyFits_of_no_notice rfl]
    exact getD_fits_iff (fits_of_le (k := 0) (by decide) (by decide))
  case putSetting => exact fits_always rfl (fits_word (putSetting_reply _ _ _))
  case serviceState =>
    rw [replyFits_of_no_notice rfl, requestRoom, ← length_frameworkServiceState]
    exact Iff.rfl
  case queryUsers =>
    rw [replyFits_of_no_notice rfl, requestRoom]
    have hreply : (serveVariables env d info .queryUsers payload).reply =
        (d.desk.settings.lookup usersKey).getD [] := by
      simp only [serveVariables, queryUsers]
      split <;> next h => simp [h]
    rw [hreply]
    exact getD_fits_iff (fits_of_le (k := 0) (by decide) (by decide))
  case checkPermission =>
    refine fits_always rfl (fits_word ?_)
    simp only [serveVariables, checkPermission]
    split <;> simp
  case setPermission => exact fits_always rfl (fits_word (setPermission_reply _ _ _))
  case applySurfaceTransaction =>
    simp only [serveVariables]
    split
    · exact fits_always rfl (fits_decimal _)
    · exact fits_always rfl (fits_word (by simp))
  case querySurfaces =>
    rw [replyFits_of_no_notice rfl, requestRoom, ← length_surfaceList]
    exact Iff.rfl
  case deviceAction =>
    exact fits_change (fits_generationReply _ _) rfl length_deviceStateReply
  case queryDeviceState =>
    rw [replyFits_of_no_notice rfl, requestRoom, ← length_deviceStateReply]
    exact Iff.rfl
  case subscribeDeviceActions =>
    rw [replyFits_of_no_notice rfl, requestRoom, ← length_deviceStateReply]
    exact Iff.rfl
  case deviceInput =>
    exact fits_change (fits_generationReply _ _) rfl length_deviceInputReply
  case subscribeDeviceInputs =>
    rw [replyFits_of_no_notice rfl, requestRoom, ← length_deviceInputReply]
    exact Iff.rfl
  case tabFinished => exact fits_always rfl (fits_generationReply _ _)
  case queryTabFinished =>
    rw [replyFits_of_no_notice rfl, requestRoom, ← length_tabFinishedReply]
    exact Iff.rfl

theorem notify_fits_iff {clients : List Client} {n : Notice} {text : Bytes} :
    (∀ m ∈ notify clients n text, m.Acceptable) ↔
      ((∃ c ∈ clients, c.info.subscribed n = true) → Fits text.length) := by
  constructor
  · rintro h ⟨c, hc, hsub⟩
    exact acceptable_iff.mp (h _ (List.mem_map_of_mem (List.mem_filter.mpr ⟨hc, hsub⟩)))
  · intro h m hm
    obtain ⟨c, hc, rfl⟩ := List.mem_map.mp hm
    exact acceptable_iff.mpr (h ⟨c, (List.mem_filter.mp hc).1, (List.mem_filter.mp hc).2⟩)

/-- A request that is announced leaves its sender's record alone. -/
theorem serve_info_of_notice {n : Notice} {text : Bytes}
    (h : (serveVariables env d info op payload).notice = some (n, text)) :
    (serveVariables env d info op payload).info = info := by
  cases op
  case deviceAction => rfl
  case deviceInput => rfl
  case applySurfaceTransaction =>
    simp only [serveVariables] at h
    split at h <;> cases h
  all_goals cases h

theorem serveDesk_fits_iff {i : ℕ} {c : Client} {h : Header} (hc : d.clients[i]? = some c)
    (hpeer : c.info.Peer) (hdesk : op.routed = false) :
    (∀ m ∈ (serveDesk (desk F env) d i c h op payload).2, m.Acceptable) ↔
      requestRoom env d (op, payload) := by
  rw [← serve_fits_iff hpeer hdesk, replyFits]
  cases hnotice : (serveVariables env d c.info op payload).notice with
  | none =>
    rw [serveDesk_of_quiet (desk F env) hnotice, List.forall_mem_singleton, acceptable_iff]
    simp [desk]
  | some pair =>
    obtain ⟨n, text⟩ := pair
    have hinfo : ((desk F env).serve d c.info op payload).info = c.info :=
      serve_info_of_notice hnotice
    rw [serveDesk_of_notice (desk F env) hnotice, hinfo, modify_info_self hc,
      List.forall_mem_cons, acceptable_iff]
    refine and_congr_right fun _ => ?_
    simp only [notify_fits_iff, Option.some.injEq, Prod.mk.injEq]
    constructor
    · rintro h _ _ ⟨rfl, rfl⟩
      exact h
    · intro h
      exact h n text ⟨rfl, rfl⟩

end Serve

/-! ## One event -/

section OneEvent

variable {σ : Type}

/-- What the routing sends fits: it is a word, or was bounded on receipt;
the list of services apart. -/
theorem routed_fits_iff {desk : Desk σ} {d : State σ} {i : ℕ} {c : Client} {h : Header}
    {payload : Bytes} (hsize : Fits payload.length)
    (hop : ∀ op, Opcode.ofCode h.opcode = some op → op.routed = true) :
    (∀ m ∈ (handle desk d i c h payload).2, m.Acceptable) ↔
      (Opcode.ofCode h.opcode = some .listServices → Fits (namesSize d.services)) := by
  have hdead : Fits (ascii "DEAD_OBJECT").length := fits_of_le (k := 11) (by decide) (by decide)
  have hdigit : ∀ word ∈ [ascii "0", ascii "1", ascii "2"], Fits word.length := by
    have hall : ∀ word ∈ [ascii "0", ascii "1", ascii "2"], word.length ≤ 1 := by decide
    exact fun word hword => fits_of_le (hall word hword) (by decide)
  cases hcode : Opcode.ofCode h.opcode with
  | none => simp [handle, hcode]
  | some op =>
    have hrouted := hop op hcode
    simp only [handle, hcode]
    cases op <;> try exact absurd hrouted (by decide)
    case listServices => simp [acceptable_iff, length_serviceList]
    case checkService =>
      simp only [checkService, List.mem_singleton, forall_eq, acceptable_iff]
      refine iff_of_true (hdigit _ ?_) (by simp)
      split
      · simp
      · split <;> simp
    case registerService =>
      simp only [registerService]
      split <;> simpa [acceptable_iff] using hdigit _ (by simp)
    case binderTransact =>
      refine iff_of_true ?_ (by simp)
      have htail : Fits (payload.dropWhile (· ≠ newline)).tail.length := by
        have := (payload.dropWhile_sublist (· ≠ newline)).length_le
        rw [Fits] at hsize ⊢
        rw [List.length_tail]
        omega
      simp only [binderTransact]
      split
      · simpa [acceptable_iff] using hdead
      · split
        · simpa [acceptable_iff] using hdead
        · split
          · simpa only [List.mem_singleton, forall_eq, acceptable_iff] using htail
          · simpa [acceptable_iff] using hdead
    case binderReply =>
      refine iff_of_true ?_ (by simp)
      simp only [binderReply]
      split
      · simp
      · split
        · simpa [acceptable_iff] using hsize
        · simp
    all_goals simp

/-- An accepted payload was bounded by the header's check. -/
theorem request_fits {poll : Poll} {h : Header} {payload : Bytes} (hexact : poll.Exact)
    (hreq : poll.request = some (h, payload)) : Fits payload.length := by
  cases poll with
  | message h' payload' =>
    cases payload' with
    | none => simp [Poll.request] at hreq
    | some payload' =>
      simp only [Poll.request] at hreq
      split at hreq
      · next hwf =>
        obtain ⟨rfl, rfl⟩ := Prod.mk.inj (Option.some.inj hreq)
        simp only [Header.wellFormed, Bool.and_eq_true, decide_eq_true_eq] at hwf
        have hlen : payload'.length = h'.payloadSize.toNat := hexact
        rw [Fits, hlen]
        exact UInt32.le_iff_toNat_le.mp hwf.2
      · cases hreq
  | _ => simp [Poll.request] at hreq

theorem deadReplies_fit (d : State σ) (fd : ℤ) : ∀ m ∈ deadReplies d fd, m.Acceptable := by
  have hdead : (ascii "DEAD_OBJECT").length ≤ 11 := by decide
  intro m hm
  simp only [deadReplies, List.mem_map] at hm
  obtain ⟨_, -, rfl⟩ := hm
  exact acceptable_iff.mpr (fits_of_le hdead (by decide))

/-- **What an event sends fits exactly where there is room.** -/
theorem step_fits_iff (env : Environment) {d : State (Variables F)} {e : Event}
    (hpeers : ∀ c ∈ d.clients, c.info.Peer) (hadm : d.Admits e) :
    (∀ m ∈ (d.step (desk F env) e).2, m.Acceptable) ↔ d.Roomy env e := by
  cases e with
  | accept fd pid uid => simp [State.step, State.Roomy, Event.request]
  | announce =>
    refine iff_of_true ?_ (by simp [State.Roomy, Event.request])
    simp only [State.step, announce, desk, tickVariables]
    by_cases hstamp : (env.outside d.desk.looks).stamp ≠ d.desk.previousRegistryStamp
    · simp only [if_pos hstamp]
      exact notify_fits_iff.mpr fun _ => fits_decimal _
    · simp [if_neg hstamp]
  | turn i poll =>
    obtain ⟨hlt, hexact⟩ : i < d.clients.length ∧ poll.Exact := hadm
    have hc : d.clients[i]? = some d.clients[i] := List.getElem?_eq_getElem hlt
    have hpeer := hpeers _ (List.getElem_mem hlt)
    simp only [State.step, hc]
    rcases poll.cases with rfl | ⟨h, payload, hreq⟩ | hl
    · simp [serveClient, State.Roomy, Event.request, Poll.request]
    · rw [serveClient_of_request hreq]
      by_cases hrouted : ∀ op, Opcode.ofCode h.opcode = some op → op.routed = true
      · rw [routed_fits_iff (request_fits hexact hreq) hrouted]
        constructor
        · intro hroom request hrequest
          obtain ⟨op, payload'⟩ := request
          have hcode : Opcode.ofCode h.opcode = some op := by
            simp only [Event.request, hreq, Option.bind_eq_bind, Option.bind_some,
              Option.bind_eq_some_iff] at hrequest
            obtain ⟨op', hcode, heq⟩ := hrequest
            rw [hcode, (Prod.mk.inj (Option.some.inj heq)).1]
          have hop := hrouted op hcode
          cases op <;> try exact absurd hop (by decide)
          case listServices => exact hroom hcode
          all_goals trivial
        · intro hroom hcode
          exact hroom _ (request_turn hreq hcode)
      · simp only [not_forall] at hrouted
        obtain ⟨op, hcode, hdesk⟩ := hrouted
        have hdesk' : op.routed = false := by simpa using hdesk
        rw [handle_of_desk hcode hdesk', serveDesk_fits_iff hc hpeer hdesk']
        simp [State.Roomy, request_turn hreq hcode]
    · rw [serveClient_of_leaves hl]
      refine iff_of_true (deadReplies_fit d _) ?_
      simp [State.Roomy, request_of_leaves hl]

theorem serve_peer {d : State (Variables F)} {info : ClientInfo} {op : Opcode} {payload : Bytes}
    (h : info.Peer) : (serveVariables env d info op payload).info.Peer := by
  cases op
  case applySurfaceTransaction =>
    simp only [serveVariables]
    split <;> exact h
  all_goals exact h

/-- Processes and users keep their 32 bits. -/
theorem peers_next (env : Environment) {d : State (Variables F)} {e : Event}
    (hpeers : ∀ c ∈ d.clients, c.info.Peer) (hadm : d.Admits e) :
    ∀ c ∈ (d.next (desk F env) e).clients, c.info.Peer := by
  have hdid := step_did (desk F env) hadm
  rw [State.next]
  generalize d.step (desk F env) e = r at hdid
  intro c hc
  cases hdid with
  | accepted fd pid uid =>
    rcases List.mem_append.mp hc with hc | hc
    · exact hpeers c hc
    · rw [List.mem_singleton.mp hc]
      exact hadm.2.2
  | announced => exact hpeers c hc
  | aside _ _ hapart =>
    have hmem : c.info ∈ d.clients.map Client.info := hapart.infos ▸ List.mem_map_of_mem hc
    obtain ⟨c', hc', hinfo⟩ := List.mem_map.mp hmem
    rw [← hinfo]
    exact hpeers c' hc'
  | left => exact hpeers c (List.mem_of_mem_eraseIdx hc)
  | @served i poll c₁ h op payload hc₁ =>
    obtain ⟨j, hj⟩ := List.getElem?_of_mem hc
    simp only [serveDesk, List.getElem?_modify] at hj
    obtain ⟨c', hc', rfl⟩ := Option.map_eq_some_iff.mp hj
    split
    · exact serve_peer (hpeers c₁ (List.mem_of_getElem? hc₁))
    · exact hpeers c' (List.mem_of_getElem? hc')

end OneEvent

/-! ## Every run -/

/-- The messages sent along a run. -/
def sent (env : Environment) (d : State (Variables F)) : List Event → List Message
  | [] => []
  | e :: es => (d.step (desk F env) e).2 ++ sent env (d.next (desk F env) e) es

/-- **When every message is acceptable.** In every run, from any settings
and whatever the clients, the events and their order: every message the
daemon sends is acceptable to its peers exactly where there is room for
each answer when it is asked for. -/
theorem messages_acceptable_iff (F : Floats) (env : Environment) (loaded : Settings)
    (stamp : UInt64) (es : List Event) (hm : Possible F env loaded stamp es) :
    (∀ m ∈ sent env (State.boot (F := F) loaded stamp) es, m.Acceptable) ↔
      Meets (State.next (desk F env)) (State.Roomy env) (State.boot loaded stamp) es := by
  have hpeers : ∀ c ∈ (State.boot (F := F) loaded stamp).clients, c.info.Peer := by
    simp [State.boot, State.start]
  rw [Possible] at hm
  generalize State.boot (F := F) loaded stamp = d at hm hpeers
  induction es generalizing d with
  | nil => simp [sent, Meets]
  | cons e es ih =>
    rw [sent, List.forall_mem_append]
    exact and_congr (step_fits_iff env hpeers hm.1) (ih _ hm.2 (peers_next env hpeers hm.1))

/-- A client connects, reports a tab as finished and asks which one it
was. -/
def finishTab (tab : Bytes) : List Event :=
  [.accept 4 1 1, .turn 0 (message 30 1 tab), .turn 0 (message 31 2 [])]

theorem messages_acceptable_finishTab :
    Possible wholeNumbers stillness ∅ 0 (finishTab (ascii "t")) ∧
    ∀ m ∈ sent stillness (State.boot (F := wholeNumbers) ∅ 0) (finishTab (ascii "t")),
      m.Acceptable := by
  refine ⟨by decide, (messages_acceptable_iff wholeNumbers stillness ∅ 0 (finishTab (ascii "t"))
    (by decide)).mpr ⟨?_, ?_, ?_, trivial⟩⟩
  · intro request hreq
    cases hreq
  · intro request hreq
    obtain rfl : request = (.tabFinished, ascii "t") :=
      (Option.some.inj ((by decide : _ = some (Opcode.tabFinished, ascii "t")).symm.trans hreq)).symm
    trivial
  · intro request hreq
    obtain rfl : request = (.queryTabFinished, []) :=
      (Option.some.inj ((by decide : _ = some (Opcode.queryTabFinished, [])).symm.trans hreq)).symm
    exact fits_of_le (k := 18) (by decide) (by decide)

/-- A payload that fits makes a message the loop accepts. -/
theorem message_request (op : UInt16) (requestId : UInt64) {payload : Bytes}
    (h : Fits payload.length) :
    (message op requestId payload).Exact ∧
      (message op requestId payload).request =
        some (⟨kProtocolMagic, kProtocolVersion, op, UInt32.ofNat payload.length, requestId⟩,
          payload) := by
  have hacc : ({ fd := 0, opcode := .ping, requestId, payload } : Message).Acceptable :=
    acceptable_iff.mpr h
  refine ⟨hacc.1.symm, ?_⟩
  rw [message, Poll.request, if_pos]
  simp only [Header.wellFormed, decide_true, Bool.true_and, decide_eq_true_eq]
  exact hacc.2

/-- The tab comes back with a label and a generation in front of it. -/
theorem finishTab_sent {b : UInt8} {rest : Bytes} (h : Fits (b :: rest).length) :
    Possible wholeNumbers stillness ∅ 0 (finishTab (b :: rest)) ∧
      ({ fd := 4, opcode := .queryTabFinished, requestId := 2
         payload := tabFinishedReply { generation := 1, tab := b :: rest } } : Message) ∈
        sent stillness (State.boot (F := wholeNumbers) ∅ 0) (finishTab (b :: rest)) := by
  obtain ⟨hexact, hreq⟩ := message_request 30 1 h
  have hnext : ∀ d : State (Variables wholeNumbers),
      d.clients = [{ fd := 4, info := { pid := 1, uid := 1 } }] →
      d.next (desk wholeNumbers stillness) (.turn 0 (message 30 1 (b :: rest))) =
        (serveDesk (desk wholeNumbers stillness) d 0 { fd := 4, info := { pid := 1, uid := 1 } }
          ⟨kProtocolMagic, kProtocolVersion, 30, UInt32.ofNat (b :: rest).length, 1⟩ .tabFinished
          (b :: rest)).1 := by
    intro d hd
    rw [State.next, State.step, hd]
    change (serveClient _ _ _ _ _).1 = _
    have hcode : Opcode.ofCode 30 = some .tabFinished := by decide
    rw [serveClient_of_request hreq, handle_of_desk hcode rfl]
  constructor
  · refine ⟨by decide, ⟨by decide, hexact⟩, ?_, trivial⟩
    rw [hnext _ (by rfl)]
    exact ⟨Nat.zero_lt_one, by decide⟩
  · refine List.mem_append_right _ (List.mem_append_right _ (List.mem_append_left _ ?_))
    rw [hnext _ (by rfl)]
    exact List.mem_cons_self

/-- **A message no peer accepts.** A tab with a name of a megabyte is
reported as finished; the answer to the question which one it was is
longer than that. -/
theorem tab_reply_too_long :
    ¬∀ es : List Event, Possible wholeNumbers stillness ∅ 0 es →
      ∀ m ∈ sent stillness (State.boot (F := wholeNumbers) ∅ 0) es, m.Acceptable := by
  intro hall
  obtain ⟨rest, hrest⟩ : ∃ rest : Bytes, rest.length = 1048575 :=
    ⟨List.replicate 1048575 97, List.length_replicate⟩
  have hlen : (97 :: rest).length = 1048576 := by
    rw [List.length_cons, hrest]
  obtain ⟨hpos, hmem⟩ := finishTab_sent (fits_of_le (Nat.le_of_eq hlen) (Nat.le_refl _))
  have hfits := acceptable_iff.mp (hall _ hpos _ hmem)
  have hmax : kMaxPayloadSize.toNat = 1048576 := rfl
  rw [Fits, length_tabFinishedReply, TabFinishedState.size, hlen, hmax] at hfits
  omega

end Daemon

end Muplar
