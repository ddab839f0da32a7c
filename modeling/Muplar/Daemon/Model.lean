import Mathlib.Data.Int.Notation
import Muplar.Common.Bytes
import Muplar.Common.KeyMap
/-!
# muplard — the main loop

The daemon's variables that route binder traffic, and the handlers of the
loop in `muplard.cpp` that touch them. A client is known to the daemon by
its descriptor only; the kernel gives the number of a closed descriptor
out again.

The remaining variables of `main` (settings, surfaces, device state,
package registry) are a type of their own, `σ`, and the opcodes that work
on them are served by a `Desk`. A desk reads the clients and answers the
sender; it holds neither map and cannot write one, which is what the loop
does too.
-/

namespace Muplar

namespace Daemon

/-! ## The protocol -/

/-- `Opcode` of `muplard_protocol.h`. -/
inductive Opcode
  | ping
  | listServices
  | registerService
  | checkService
  | subscribePackages
  | packageChanged
  | clientInfo
  | queryPackages
  | appSession
  | queryTasks
  | fdEcho
  | getSetting
  | putSetting
  | binderTransact
  | binderIncoming
  | binderReply
  | serviceState
  | queryUsers
  | checkPermission
  | setPermission
  | applySurfaceTransaction
  | querySurfaces
  | deviceAction
  | queryDeviceState
  | subscribeDeviceActions
  | deviceActionChanged
  | deviceInput
  | subscribeDeviceInputs
  | deviceInputChanged
  | tabFinished
  | queryTabFinished
  deriving DecidableEq, Repr

/-- The opcodes in the order of their numbers, the first being `1`. -/
def Opcode.all : List Opcode :=
  [.ping, .listServices, .registerService, .checkService, .subscribePackages, .packageChanged,
   .clientInfo, .queryPackages, .appSession, .queryTasks, .fdEcho, .getSetting, .putSetting,
   .binderTransact, .binderIncoming, .binderReply, .serviceState, .queryUsers, .checkPermission,
   .setPermission, .applySurfaceTransaction, .querySurfaces, .deviceAction, .queryDeviceState,
   .subscribeDeviceActions, .deviceActionChanged, .deviceInput, .subscribeDeviceInputs,
   .deviceInputChanged, .tabFinished, .queryTabFinished]

/-- `static_cast<Opcode>(header.opcode)`: a number no opcode has matches
no branch of the loop. -/
def Opcode.ofCode (code : UInt16) : Option Opcode :=
  if code = 0 then none else Opcode.all[code.toNat - 1]?

/-- `MessageHeader`. -/
structure Header where
  magic : UInt32
  version : UInt16
  opcode : UInt16
  payloadSize : UInt32
  requestId : UInt64
  deriving DecidableEq

def kProtocolMagic : UInt32 := 0x4d555044
def kProtocolVersion : UInt16 := 1
def kMaxPayloadSize : UInt32 := 1024 * 1024

/-- The header checks of the loop; a header that fails one costs its
sender the connection. -/
def Header.wellFormed (h : Header) : Bool :=
  h.magic = kProtocolMagic && h.version = kProtocolVersion && h.payloadSize ≤ kMaxPayloadSize

/-- One call of `send_message`. `answers` is not on the wire: it is the
transaction a `BinderTransact` reply settles. -/
structure Message where
  fd : ℤ
  opcode : Opcode
  requestId : UInt64
  payload : Bytes
  reply : Bool := true
  answers : Option UInt64 := none
  deriving DecidableEq

/-! ## The daemon's variables -/

/-- The fields of `Client` that no binder handler reads. -/
structure ClientInfo where
  pid : ℤ := 0
  uid : ℤ := 0
  packageSubscriber : Bool := false
  deviceActionSubscriber : Bool := false
  deviceInputSubscriber : Bool := false
  appPackage : Bytes := []
  appActivity : Bytes := []
  deriving DecidableEq

/-- `Client`. -/
structure Client where
  fd : ℤ
  ownedServices : List Bytes := []
  info : ClientInfo := {}
  deriving DecidableEq

/-- `owned_services.insert(name)`. -/
def Client.own (name : Bytes) (c : Client) : Client :=
  { c with ownedServices := c.ownedServices.insert name }

/-- `PendingTransaction`. -/
structure PendingTransaction where
  callerFd : ℤ
  ownerFd : ℤ
  callerRequestId : UInt64
  deriving DecidableEq

/-- The variables of `main` the loop works on. -/
structure State (σ : Type) where
  services : AList fun _ : Bytes => ℤ
  pendingTransactions : AList fun _ : UInt64 => PendingTransaction
  nextTransactionId : UInt64
  clients : List Client
  desk : σ

variable {σ : Type}

/-- `builtin_services`. -/
def builtinServices : AList fun _ : Bytes => ℤ :=
  [ascii "activity", ascii "package", ascii "launcherapps", ascii "shortcut",
   ascii "appwidget", ascii "window", ascii "input_method", ascii "permission",
   ascii "user", ascii "settings", ascii "surfaceflinger"].foldr
    (fun name services => services.insert name (-1)) ∅

/-- The variables as `main` sets them up before the loop. -/
def State.start (desk : σ) : State σ where
  services := builtinServices
  pendingTransactions := ∅
  nextTransactionId := 1
  clients := []
  desk := desk

/-- The descriptors of the connected clients. -/
def State.fds (d : State σ) : List ℤ :=
  d.clients.map Client.fd

/-- Whether `send_message` to this descriptor succeeds: it does for a
connected client. -/
def State.sendOk (d : State σ) (fd : ℤ) : Bool :=
  fd ∈ d.fds

/-! ## The other opcodes -/

/-- The messages the loop broadcasts to subscribers. -/
inductive Notice
  | packageChanged
  | deviceActionChanged
  | deviceInputChanged
  deriving DecidableEq

def Notice.opcode : Notice → Opcode
  | .packageChanged => .packageChanged
  | .deviceActionChanged => .deviceActionChanged
  | .deviceInputChanged => .deviceInputChanged

/-- The subscription flag a notice is sent by. -/
def ClientInfo.subscribed (info : ClientInfo) : Notice → Bool
  | .packageChanged => info.packageSubscriber
  | .deviceActionChanged => info.deviceActionSubscriber
  | .deviceInputChanged => info.deviceInputSubscriber

/-- What serving one of the other opcodes comes to: the new variables,
the sender's new record, the reply and the notice that follows it. -/
structure DeskReply (σ : Type) where
  desk : σ
  info : ClientInfo
  reply : Bytes
  notice : Option (Notice × Bytes) := none

/-- The handlers of the other opcodes, and the check of the package
registry's stamp at the end of a cycle. -/
structure Desk (σ : Type) where
  serve : State σ → ClientInfo → Opcode → Bytes → DeskReply σ
  tick : σ → σ × Option Bytes

/-- A notice, to every client that subscribed to it. -/
def notify (clients : List Client) (notice : Notice) (payload : Bytes) : List Message :=
  (clients.filter fun client => client.info.subscribed notice).map fun client =>
    { fd := client.fd, opcode := notice.opcode, requestId := 0, payload, reply := false }

/-! ## The handlers -/

/-- `service_list`: the names in order, one a line. -/
def serviceList (services : AList fun _ : Bytes => ℤ) : Bytes :=
  (services.keys.mergeSort fun a b => decide (a ≤ b)).intersperse [newline] |>.flatten

/-- `CheckService`. -/
def checkService (d : State σ) (c : Client) (h : Header) (payload : Bytes) :
    State σ × List Message :=
  let answer := match d.services.lookup payload with
    | none => ascii "0"
    | some fd => if fd ≥ 0 then ascii "2" else ascii "1"
  (d, [{ fd := c.fd, opcode := .checkService, requestId := h.requestId, payload := answer }])

/-- The `available` test of `RegisterService`. -/
def available (d : State σ) (name : Bytes) : Bool :=
  !name.isEmpty && match d.services.lookup name with
    | none => true
    | some fd => fd < 0

/-- `RegisterService`: a name nobody owns, or one only declared, goes to
the sender. -/
def registerService (d : State σ) (i : ℕ) (c : Client) (h : Header) (payload : Bytes) :
    State σ × List Message :=
  let reply := fun answer =>
    [{ fd := c.fd, opcode := .registerService, requestId := h.requestId, payload := answer }]
  if available d payload then
    ({ d with
        services := d.services.insert payload c.fd
        clients := d.clients.modify i (Client.own payload) },
      reply (ascii "1"))
  else (d, reply (ascii "0"))

/-- `BinderTransact`: the request goes to the service's owner under a
fresh transaction id, and is remembered until it is answered. -/
def binderTransact (d : State σ) (c : Client) (h : Header) (payload : Bytes) :
    State σ × List Message :=
  let service := payload.takeWhile (· ≠ newline)
  let dead : Message :=
    { fd := c.fd, opcode := .binderTransact, requestId := h.requestId,
      payload := ascii "DEAD_OBJECT" }
  match d.services.lookup service with
  | none => (d, [dead])
  | some owner =>
    if newline ∉ payload ∨ owner < 0 then (d, [dead])
    else
      let transactionId := d.nextTransactionId
      let d' := { d with
        nextTransactionId := d.nextTransactionId + 1
        pendingTransactions :=
          d.pendingTransactions.insert transactionId ⟨c.fd, owner, h.requestId⟩ }
      if d'.sendOk owner then
        (d', [{ fd := owner, opcode := .binderIncoming, requestId := transactionId,
                payload := (payload.dropWhile (· ≠ newline)).tail, reply := false }])
      else
        ({ d' with pendingTransactions := d'.pendingTransactions.erase transactionId }, [dead])

/-- `BinderReply`: taken from the owner the transaction went to, and from
nobody else. -/
def binderReply (d : State σ) (c : Client) (h : Header) (payload : Bytes) :
    State σ × List Message :=
  match d.pendingTransactions.lookup h.requestId with
  | none => (d, [])
  | some pending =>
    if pending.ownerFd = c.fd then
      ({ d with pendingTransactions := d.pendingTransactions.erase h.requestId },
        [{ fd := pending.callerFd, opcode := .binderTransact,
           requestId := pending.callerRequestId, payload, answers := some h.requestId }])
    else (d, [])

/-- Every other opcode that has a handler. -/
def serveDesk (desk : Desk σ) (d : State σ) (i : ℕ) (c : Client) (h : Header) (op : Opcode)
    (payload : Bytes) : State σ × List Message :=
  let served := desk.serve d c.info op payload
  let clients := d.clients.modify i fun client => { client with info := served.info }
  ({ d with clients, desk := served.desk },
    { fd := c.fd, opcode := op, requestId := h.requestId, payload := served.reply } ::
      match served.notice with
      | none => []
      | some (notice, text) => notify clients notice text)

theorem serveDesk_of_quiet (desk : Desk σ) {d : State σ} {i : ℕ} {c : Client} {h : Header}
    {op : Opcode} {payload : Bytes} (hquiet : (desk.serve d c.info op payload).notice = none) :
    (serveDesk desk d i c h op payload).2 =
      [{ fd := c.fd, opcode := op, requestId := h.requestId
         payload := (desk.serve d c.info op payload).reply }] := by
  simp only [serveDesk, hquiet]

theorem serveDesk_of_notice (desk : Desk σ) {d : State σ} {i : ℕ} {c : Client} {h : Header}
    {op : Opcode} {payload : Bytes} {notice : Notice} {text : Bytes}
    (hnotice : (desk.serve d c.info op payload).notice = some (notice, text)) :
    (serveDesk desk d i c h op payload).2 =
      { fd := c.fd, opcode := op, requestId := h.requestId
        payload := (desk.serve d c.info op payload).reply } ::
      notify (d.clients.modify i fun client =>
        { client with info := (desk.serve d c.info op payload).info }) notice text := by
  simp only [serveDesk, hnotice]

/-- The branch of the loop an accepted message takes. -/
def handle (desk : Desk σ) (d : State σ) (i : ℕ) (c : Client) (h : Header) (payload : Bytes) :
    State σ × List Message :=
  match Opcode.ofCode h.opcode with
  | some .listServices =>
      (d, [{ fd := c.fd, opcode := .listServices, requestId := h.requestId,
             payload := serviceList d.services }])
  | some .checkService => checkService d c h payload
  | some .registerService => registerService d i c h payload
  | some .binderTransact => binderTransact d c h payload
  | some .binderReply => binderReply d c h payload
  -- sent by the daemon only: no branch of the loop takes them
  | some .packageChanged | some .binderIncoming | some .deviceActionChanged
  | some .deviceInputChanged => (d, [])
  | some op => serveDesk desk d i c h op payload
  | none => (d, [])

/-- One name of a leaving client: erased where its entry still is the
client's. -/
def releaseService (fd : ℤ) (services : AList fun _ : Bytes => ℤ) (name : Bytes) :
    AList fun _ : Bytes => ℤ :=
  if services.lookup name = some fd then services.erase name else services

/-- The answers a leaving client's callers get. -/
def deadReplies (d : State σ) (fd : ℤ) : List Message :=
  (d.pendingTransactions.entries.filter fun e => e.2.ownerFd = fd).map fun e =>
    { fd := e.2.callerFd, opcode := .binderTransact, requestId := e.2.callerRequestId,
      payload := ascii "DEAD_OBJECT", answers := some e.1 }

/-- The `remove_client` branch: answer or forget the client's
transactions, release its services, close and erase it. -/
def removeClient (d : State σ) (i : ℕ) (c : Client) : State σ × List Message :=
  ({ d with
      pendingTransactions :=
        KeyMap.retain (fun _ p => p.ownerFd ≠ c.fd && p.callerFd ≠ c.fd) d.pendingTransactions
      services := c.ownedServices.foldl (releaseService c.fd) d.services
      clients := d.clients.eraseIdx i },
    deadReplies d c.fd)

/-! ## One client's turn, and one cycle -/

/-- What the poll and the two reads find at a client's descriptor. -/
inductive Poll
  /-- nothing to read -/
  | idle
  /-- `POLLERR`, `POLLHUP` or `POLLNVAL` -/
  | hangup
  /-- readable, but no whole header follows -/
  | truncated
  /-- a header, and the payload if all of it follows -/
  | message (h : Header) (payload : Option Bytes)

/-- The accepted message of a turn, where there is one. -/
def Poll.request : Poll → Option (Header × Bytes)
  | .message h (some payload) => if h.wellFormed then some (h, payload) else none
  | _ => none

/-- One turn of the client at index `i`: idle, served, or removed. -/
def serveClient (desk : Desk σ) (d : State σ) (i : ℕ) (c : Client) (poll : Poll) :
    State σ × List Message :=
  match poll with
  | .idle => (d, [])
  | poll => match poll.request with
    | some (h, payload) => handle desk d i c h payload
    | none => removeClient d i c

/-- An accepted connection on descriptor `fd`. -/
def accept (d : State σ) (fd : ℤ) (info : ClientInfo) : State σ :=
  { d with clients := d.clients ++ [{ fd, info }] }

/-- The end of a cycle: a changed registry stamp is announced. -/
def announce (desk : Desk σ) (d : State σ) : State σ × List Message :=
  let (rest, text) := desk.tick d.desk
  ({ d with desk := rest }, match text with
    | none => []
    | some text => notify d.clients .packageChanged text)

end Daemon

end Muplar
