import Mathlib.Logic.Function.Basic
import Muplar.Android.ParcelWire
/-!
# The Android runtime — the binder table

The runtime stands in for the binder driver and the service manager. A
binder is an entry of a table: a local one belongs to the guest and is
destroyed when its count of strong references runs out; a remote one
stands for a service elsewhere and is never destroyed. Names lead to
entries, weak references and parcels hold handles without counting, and a
local binder may have another as its extension, which counts as one
reference to it.

What a call does is a function of the table. What the guest is called
back with comes out as a list; a callback that itself calls into the
runtime is not modelled, but for `on_transact`, whose beginning and end
are two calls with anything in between. Handles are drawn from counters
of 64 bits, which are taken not to run over.
-/

namespace Muplar

namespace Android

/-! ## State -/

structure DeathLink where
  recipientHandle : ℕ
  cookie : ℕ
  onBinderDied : ℕ
  onUnlinked : ℕ
  deriving DecidableEq

structure BinderService where
  name : Bytes
  refCount : ℕ := 1
  alive : Bool := true
  remote : Bool := true
  daemonOwned : Bool := false
  classHandle : ℕ := 0
  userData : ℕ := 0
  extensionHandle : ℕ := 0
  deathLinks : List DeathLink := []
  deriving DecidableEq

structure BinderClass where
  descriptor : Bytes
  onCreate : ℕ
  onDestroy : ℕ
  onTransact : ℕ
  interfaceTokenHeader : Bool := true
  deriving DecidableEq

structure BinderParcel where
  targetBinder : ℕ := 0
  transactionCode : UInt32 := 0
  reply : Bool := false
  cursor : ℕ := 0
  values : List BinderParcelValue := []
  deriving DecidableEq

structure BinderDeathRecipient where
  onBinderDied : ℕ
  onUnlinked : ℕ
  deriving DecidableEq

def firstBinderHandle : ℕ := 0xB1D00001

structure Binders where
  services : ℕ → Option BinderService
  serviceByName : Bytes → Option ℕ
  removedServiceNames : Bytes → Bool
  nextBinderHandle : ℕ
  classes : ℕ → Option BinderClass
  nextBinderClassHandle : ℕ
  parcels : ℕ → Option BinderParcel
  nextBinderParcelHandle : ℕ
  deathRecipients : ℕ → Option BinderDeathRecipient
  nextBinderDeathHandle : ℕ
  weaks : ℕ → Option ℕ
  nextBinderWeakHandle : ℕ

def Binders.empty : Binders where
  services _ := none
  serviceByName _ := none
  removedServiceNames _ := false
  nextBinderHandle := firstBinderHandle
  classes _ := none
  nextBinderClassHandle := 0xB1C00001
  parcels _ := none
  nextBinderParcelHandle := 0xB1D10001
  deathRecipients _ := none
  nextBinderDeathHandle := 0xB1D30001
  weaks _ := none
  nextBinderWeakHandle := 0xB1D40001

/-- A call of a guest function. A link's callbacks are marked with the
binder the link is on; `refused` is the `on_unlinked` of a link that was
not made. -/
inductive Callback
  | died (binder : ℕ) (link : DeathLink)
  | unlinked (binder : ℕ) (link : DeathLink)
  | refused (binder : ℕ) (link : DeathLink)
  | destroyed (binder : ℕ) (onDestroy userData : ℕ)
  deriving DecidableEq

/-- What a call leaves: the table, the value it returns, what it writes
through its out pointer, and the callbacks it makes. -/
structure Outcome where
  binders : Binders
  result : ℕ := 0
  out : Option ℕ := none
  callbacks : List Callback := []

def statusOk : ℕ := 0

/-- `static_cast<uint64_t>(static_cast<int64_t>(-code))`. -/
def statusError (code : ℕ) : ℕ := 2 ^ 64 - code

def statusBadValue : ℕ := statusError 22
def statusBadType : ℕ := statusError 2147483647
def statusInvalidOperation : ℕ := statusError 38
def statusNameNotFound : ℕ := statusError 2
def statusAlreadyExists : ℕ := statusError 17
def statusDeadObject : ℕ := statusError 32
def statusNotEnoughData : ℕ := statusError 61
def statusUnexpectedNull : ℕ := statusError 2147483640

/-! ## Callbacks of links -/

/-- `notify_death_unlinked`. -/
def notifyDeathUnlinked (binder : ℕ) (link : DeathLink) : List Callback :=
  if link.onUnlinked ≠ 0 then [.unlinked binder link] else []

/-- `notify_binder_died`. -/
def notifyBinderDied (binder : ℕ) (link : DeathLink) : List Callback :=
  if link.onBinderDied ≠ 0 then [.died binder link] else []

/-- `notify_death_unlinked` for a link that is not made. -/
def notifyRefused (binder : ℕ) (link : DeathLink) : List Callback :=
  if link.onUnlinked ≠ 0 then [.refused binder link] else []

/-! ## Entries of the table -/

/-- An entry that is there is changed. -/
def Binders.modify (b : Binders) (handle : ℕ) (f : BinderService → BinderService) : Binders :=
  { b with services := Function.update b.services handle ((b.services handle).map f) }

def Binders.create (b : Binders) (service : BinderService) : Binders :=
  { b with
    services := Function.update b.services b.nextBinderHandle (some service)
    nextBinderHandle := b.nextBinderHandle + 1 }

/-- `ref_count++`, in 32 bits. -/
def BinderService.acquire (s : BinderService) : BinderService :=
  { s with refCount := (s.refCount + 1) % 2 ^ 32 }

/-- `ref_count--`, where it is more than one. -/
def BinderService.drop (s : BinderService) : BinderService :=
  { s with refCount := s.refCount - 1 }

/-- The names that lead to a handle are forgotten. -/
def Binders.cleanupServiceNames (b : Binders) (handle : ℕ) (markRemoved : Bool) : Binders :=
  { b with
    serviceByName := fun name =>
      if b.serviceByName name = some handle then none else b.serviceByName name
    removedServiceNames := fun name =>
      b.removedServiceNames name || markRemoved && b.serviceByName name = some handle }

def Binders.erase (b : Binders) (handle : ℕ) : Binders :=
  { b.cleanupServiceNames handle true with services := Function.update b.services handle none }

/-- What the guest is called with when a binder is destroyed. -/
def Binders.destroyCallbacks (b : Binders) (handle : ℕ) (s : BinderService) : List Callback :=
  let onDestroy := ((b.classes s.classHandle).map BinderClass.onDestroy).getD 0
  (if onDestroy ≠ 0 then [.destroyed handle onDestroy s.userData] else []) ++
    s.deathLinks.flatMap (notifyDeathUnlinked handle)

/-- `release_binder_strong`. It goes on to the extension of a binder it
has destroyed, so as often as there are entries. -/
def Binders.releaseFuel : ℕ → Binders → ℕ → Binders × List Callback
  | 0, b, _ => (b, [])
  | fuel + 1, b, handle =>
    match b.services handle with
    | none => (b, [])
    | some s =>
      if s.remote then (if 1 < s.refCount then b.modify handle .drop else b, [])
      else if 1 < s.refCount then (b.modify handle .drop, [])
      else
        let erased := b.erase handle
        let callbacks := b.destroyCallbacks handle s
        if s.extensionHandle ≠ 0 then
          let rest := Binders.releaseFuel fuel erased s.extensionHandle
          (rest.1, callbacks ++ rest.2)
        else (erased, callbacks)

def Binders.releaseBinderStrong (b : Binders) (handle : ℕ) : Binders × List Callback :=
  b.releaseFuel (b.nextBinderHandle + 1) handle

/-- `retire_service`. -/
def Binders.retireService (b : Binders) (handle : ℕ) (s : BinderService) : Outcome :=
  if !s.alive then { binders := b, result := statusDeadObject }
  else
    { binders := (b.cleanupServiceNames handle false).modify handle fun s =>
        { s with alive := false, deathLinks := [] }
      result := statusOk
      callbacks := s.deathLinks.flatMap fun link =>
        notifyBinderDied handle link ++ notifyDeathUnlinked handle link }

/-! ## The service manager -/

/-- `service_handle_for_name`. `owned` is what the daemon answers to
`check_service`, where there is one to ask. -/
def Binders.serviceHandleForName (b : Binders) (name : Bytes) (createMissing owned : Bool) :
    Outcome :=
  if name.isEmpty then { binders := b }
  else match (b.serviceByName name).filter fun h => (b.services h).any (·.alive) with
    | some handle => { binders := b, result := handle }
    | none =>
      let forgotten := { b with serviceByName := Function.update b.serviceByName name none }
      if b.removedServiceNames name then { binders := forgotten }
      else if !createMissing then { binders := forgotten }
      else
        { binders := { forgotten.create { name, daemonOwned := owned } with
            serviceByName := Function.update b.serviceByName name (some b.nextBinderHandle) }
          result := b.nextBinderHandle }

/-- `AServiceManager_checkService`, `_getService` and `_waitForService`. -/
def Binders.serviceLookup (b : Binders) (name : Bytes) (owned : Bool) : Outcome :=
  b.serviceHandleForName name true owned

/-- `AServiceManager_addService`. -/
def Binders.addService (b : Binders) (handle : ℕ) (name : Bytes) : Outcome :=
  match b.services handle with
  | none => { binders := b, result := statusBadValue }
  | some s =>
    if name.isEmpty || !s.alive || s.remote then { binders := b, result := statusBadValue }
    else if (b.serviceByName name).any fun h => h ≠ handle && (b.services h).any (·.alive) then
      { binders := b, result := statusAlreadyExists }
    else
      { binders := { b.modify handle fun s => { s with name } with
          serviceByName := Function.update b.serviceByName name (some handle)
          removedServiceNames := Function.update b.removedServiceNames name false }
        result := statusOk }

/-! ## Binders -/

/-- `AIBinder_Class_define`. -/
def Binders.classDefine (b : Binders) (descriptor : Bytes) (onCreate onDestroy onTransact : ℕ) :
    Outcome :=
  if descriptor.isEmpty then { binders := b }
  else
    { binders := { b with
        classes := Function.update b.classes b.nextBinderClassHandle
          (some { descriptor, onCreate, onDestroy, onTransact })
        nextBinderClassHandle := b.nextBinderClassHandle + 1 }
      result := b.nextBinderClassHandle }

/-- `AIBinder_Class_disableInterfaceTokenHeader`. -/
def Binders.disableInterfaceTokenHeader (b : Binders) (clazz : ℕ) : Outcome :=
  { binders := { b with
      classes := Function.update b.classes clazz
        ((b.classes clazz).map fun c => { c with interfaceTokenHeader := false }) } }

/-- `AIBinder_new`; `created` is what `on_create` returns. -/
def Binders.new (b : Binders) (clazz args created : ℕ) : Outcome :=
  match b.classes clazz with
  | none => { binders := b }
  | some c =>
    { binders := b.create
        { name := c.descriptor
          remote := false
          classHandle := clazz
          userData := if c.onCreate ≠ 0 then created else args }
      result := b.nextBinderHandle }

/-- `AIBinder_associateClass`. -/
def Binders.associateClass (b : Binders) (handle clazz : ℕ) : Outcome :=
  if (b.services handle).isNone || (b.classes clazz).isNone then { binders := b }
  else { binders := b.modify handle fun s => { s with classHandle := clazz }, result := 1 }

/-- `AIBinder_incStrong`. -/
def Binders.incStrong (b : Binders) (handle : ℕ) : Outcome :=
  { binders := b.modify handle .acquire }

/-- `AIBinder_decStrong`. -/
def Binders.decStrong (b : Binders) (handle : ℕ) : Outcome :=
  { binders := (b.releaseBinderStrong handle).1
    callbacks := (b.releaseBinderStrong handle).2 }

/-- `AIBinder_Weak_new`. -/
def Binders.weakNew (b : Binders) (handle : ℕ) : Outcome :=
  if (b.services handle).isNone then { binders := b }
  else
    { binders := { b with
        weaks := Function.update b.weaks b.nextBinderWeakHandle (some handle)
        nextBinderWeakHandle := b.nextBinderWeakHandle + 1 }
      result := b.nextBinderWeakHandle }

/-- `AIBinder_Weak_delete`. -/
def Binders.weakDelete (b : Binders) (weak : ℕ) : Outcome :=
  { binders := { b with weaks := Function.update b.weaks weak none } }

/-- `AIBinder_Weak_promote`. -/
def Binders.weakPromote (b : Binders) (weak : ℕ) : Outcome :=
  match (b.weaks weak).filter fun h => (b.services h).any (·.alive) with
  | none => { binders := b }
  | some handle => { binders := b.modify handle .acquire, result := handle }

/-- `AIBinder_Weak_clone`. -/
def Binders.weakClone (b : Binders) (weak : ℕ) : Outcome :=
  match b.weaks weak with
  | none => { binders := b }
  | some handle =>
    { binders := { b with
        weaks := Function.update b.weaks b.nextBinderWeakHandle (some handle)
        nextBinderWeakHandle := b.nextBinderWeakHandle + 1 }
      result := b.nextBinderWeakHandle }

/-- `AIBinder_setExtension`. -/
def Binders.setExtension (b : Binders) (handle extension : ℕ) : Outcome :=
  if handle = 0 || extension = 0 then { binders := b, result := statusUnexpectedNull }
  else match b.services handle, b.services extension with
    | some s, some e =>
      if !s.alive || !e.alive then { binders := b, result := statusDeadObject }
      else if s.remote then { binders := b, result := statusInvalidOperation }
      else if s.extensionHandle = extension then { binders := b, result := statusOk }
      else
        let linked := (b.modify extension .acquire).modify handle fun s =>
          { s with extensionHandle := extension }
        if s.extensionHandle ≠ 0 then
          { binders := (linked.releaseBinderStrong s.extensionHandle).1
            result := statusOk
            callbacks := (linked.releaseBinderStrong s.extensionHandle).2 }
        else { binders := linked, result := statusOk }
    | _, _ => { binders := b, result := statusBadValue }

/-- `AIBinder_getExtension`. -/
def Binders.getExtension (b : Binders) (handle out : ℕ) : Outcome :=
  if handle = 0 then { binders := b, result := statusUnexpectedNull }
  else if out = 0 then { binders := b, result := statusBadValue }
  else match b.services handle with
    | none => { binders := b, result := statusBadValue }
    | some s =>
      if s.extensionHandle = 0 then { binders := b, result := statusOk, out := some 0 }
      else if (b.services s.extensionHandle).any (·.alive) then
        { binders := b.modify s.extensionHandle .acquire
          result := statusOk
          out := some s.extensionHandle }
      else { binders := b, result := statusDeadObject, out := some 0 }

/-! ## Death recipients -/

/-- `AIBinder_DeathRecipient_new`. -/
def Binders.deathRecipientNew (b : Binders) (onBinderDied : ℕ) : Outcome :=
  if onBinderDied = 0 then { binders := b }
  else
    { binders := { b with
        deathRecipients := Function.update b.deathRecipients b.nextBinderDeathHandle
          (some { onBinderDied, onUnlinked := 0 })
        nextBinderDeathHandle := b.nextBinderDeathHandle + 1 }
      result := b.nextBinderDeathHandle }

/-- `AIBinder_DeathRecipient_setOnUnlinked`. -/
def Binders.deathRecipientSetOnUnlinked (b : Binders) (recipient onUnlinked : ℕ) : Outcome :=
  { binders := { b with
      deathRecipients := Function.update b.deathRecipients recipient
        ((b.deathRecipients recipient).map fun r => { r with onUnlinked }) } }

/-- The handles given out so far. -/
def Binders.handles (b : Binders) : List ℕ :=
  List.range' firstBinderHandle (b.nextBinderHandle - firstBinderHandle)

def Binders.linksOf (b : Binders) (handle : ℕ) : List DeathLink :=
  ((b.services handle).map BinderService.deathLinks).getD []

/-- `AIBinder_DeathRecipient_delete`. The table is gone through in the
order of the handles; in the source the order is not specified. -/
def Binders.deathRecipientDelete (b : Binders) (recipient : ℕ) : Outcome :=
  if (b.deathRecipients recipient).isNone then { binders := b }
  else
    { binders := { b with
        services := fun h => (b.services h).map fun s =>
          { s with deathLinks := s.deathLinks.filter (·.recipientHandle ≠ recipient) }
        deathRecipients := Function.update b.deathRecipients recipient none }
      callbacks := b.handles.flatMap fun h =>
        ((b.linksOf h).filter (·.recipientHandle = recipient)).flatMap (notifyDeathUnlinked h) }

/-- `AIBinder_linkToDeath`. -/
def Binders.linkToDeath (b : Binders) (handle recipient cookie : ℕ) : Outcome :=
  match b.services handle, b.deathRecipients recipient with
  | some s, some r =>
    let link : DeathLink := ⟨recipient, cookie, r.onBinderDied, r.onUnlinked⟩
    if !s.alive then
      { binders := b, result := statusDeadObject, callbacks := notifyRefused handle link }
    else if !s.remote then
      { binders := b, result := statusInvalidOperation, callbacks := notifyRefused handle link }
    else if s.deathLinks.any fun l => l.recipientHandle = recipient && l.cookie = cookie then
      { binders := b, result := statusAlreadyExists, callbacks := notifyRefused handle link }
    else
      { binders := b.modify handle fun s => { s with deathLinks := s.deathLinks ++ [link] }
        result := statusOk }
  | _, _ => { binders := b, result := statusBadValue }

/-- `AIBinder_unlinkToDeath`: the first link with the recipient and the
cookie. -/
def Binders.unlinkToDeath (b : Binders) (handle recipient cookie : ℕ) : Outcome :=
  match b.services handle, b.deathRecipients recipient with
  | some s, some _ =>
    match s.deathLinks.find? fun l => l.recipientHandle = recipient && l.cookie = cookie with
    | some link =>
      { binders := b.modify handle fun s => { s with deathLinks := s.deathLinks.erase link }
        result := statusOk
        callbacks := notifyDeathUnlinked handle link }
    | none => { binders := b, result := statusNameNotFound }
  | _, _ => { binders := b, result := statusBadValue }

/-- `__muplar_binder_kill`. -/
def Binders.muplarBinderKill (b : Binders) (handle : ℕ) : Outcome :=
  match b.services handle with
  | none => { binders := b, result := statusBadValue }
  | some s => b.retireService handle s

/-! ## Parcels -/

def Binders.setParcel (b : Binders) (handle : ℕ) (parcel : Option BinderParcel) : Binders :=
  { b with parcels := Function.update b.parcels handle parcel }

/-- `create_parcel`, with what is then put into it. -/
def Binders.createParcel (b : Binders) (parcel : BinderParcel) : Binders :=
  { b.setParcel b.nextBinderParcelHandle (some parcel) with
    nextBinderParcelHandle := b.nextBinderParcelHandle + 1 }

/-- `append_value` and `append_parcel_value`: what every `AParcel_write…`
comes to. -/
def Binders.appendValue (b : Binders) (handle : ℕ) (value : BinderParcelValue) : Outcome :=
  match b.parcels handle with
  | none => { binders := b, result := statusBadValue }
  | some p =>
    { binders := b.setParcel handle
        (some { p with values := p.values ++ [value], cursor := p.values.length + 1 })
      result := statusOk }

/-- `read_value`; it fails with a status. -/
def Binders.readValue (b : Binders) (handle : ℕ) (expected : BinderParcelKind) :
    Except ℕ (Binders × BinderParcelValue) :=
  match b.parcels handle with
  | none => .error statusBadValue
  | some p => match p.values[p.cursor]? with
    | none => .error statusNotEnoughData
    | some value =>
      if value.kind ≠ expected then .error statusBadValue
      else .ok (b.setParcel handle (some { p with cursor := p.cursor + 1 }), value)

/-- An `AParcel_read…` that is not `AParcel_readStrongBinder`: what it
does to the table. -/
def Binders.readOther (b : Binders) (handle : ℕ) (expected : BinderParcelKind) : Outcome :=
  match b.readValue handle expected with
  | .error status => { binders := b, result := status }
  | .ok (read, _) => { binders := read, result := statusOk }

/-- `AParcel_writeStrongBinder`: the handle is written as it is, without a
reference to its binder. -/
def Binders.writeStrongBinder (b : Binders) (handle : ℕ) (binder : UInt64) : Outcome :=
  b.appendValue handle { kind := .strongBinder, value := binder }

/-- `AParcel_readStrongBinder`. -/
def Binders.readStrongBinder (b : Binders) (handle : ℕ) : Outcome :=
  match b.readValue handle .strongBinder with
  | .error status => { binders := b, result := status }
  | .ok (read, value) =>
    { binders := read.modify value.value.toNat .acquire
      result := statusOk
      out := some value.value.toNat }

/-- `AParcel_setDataPosition`. -/
def Binders.setDataPosition (b : Binders) (handle : ℕ) (position : Int32) : Outcome :=
  match b.parcels handle with
  | none => { binders := b, result := statusBadValue }
  | some p =>
    if position < 0 || p.values.length < position.toInt.toNat then
      { binders := b, result := statusBadValue }
    else
      { binders := b.setParcel handle (some { p with cursor := position.toInt.toNat })
        result := statusOk }

/-- `AIBinder_prepareTransaction`. -/
def Binders.prepareTransaction (b : Binders) (handle out : ℕ) : Outcome :=
  match b.services handle with
  | none => { binders := b, result := statusBadValue }
  | some s =>
    if out = 0 then { binders := b, result := statusBadValue }
    else if !s.alive then { binders := b, result := statusDeadObject }
    else match b.classes s.classHandle with
      | none =>
        if s.classHandle ≠ 0 then { binders := b, result := statusInvalidOperation }
        else
          { binders := b.createParcel { targetBinder := handle }
            result := statusOk
            out := some b.nextBinderParcelHandle }
      | some c =>
        let values := if s.classHandle ≠ 0 && c.interfaceTokenHeader then
          [{ kind := .interfaceToken, text := c.descriptor }] else []
        { binders := b.createParcel { targetBinder := handle, cursor := values.length, values }
          result := statusOk
          out := some b.nextBinderParcelHandle }

/-! ## Transactions -/

/-- The arguments of `AIBinder_transact`: the handle of the input parcel,
if there is one, whether there is a place for the reply, and
`FLAG_ONEWAY`. -/
structure Transaction where
  binder : ℕ
  code : UInt32
  input : ℕ
  wantsReply : Bool
  oneway : Bool
  deriving DecidableEq

/-- `consume_input`. -/
def Binders.consumeInput (b : Binders) (input : ℕ) : Binders :=
  if input ≠ 0 then b.setParcel input none else b

def Binders.transactionRefused (b : Binders) (t : Transaction) (status : ℕ) : Outcome where
  binders := b.consumeInput t.input
  result := status
  out := if t.wantsReply then some 0 else none

/-- The reply is put into a new parcel, where one is wanted. -/
def Binders.transactionReplied (b : Binders) (t : Transaction) (values : List BinderParcelValue) :
    Outcome :=
  if !t.oneway && t.wantsReply then
    { binders := (b.createParcel
        { targetBinder := t.binder, transactionCode := t.code, reply := true, values }).consumeInput
          t.input
      result := statusOk
      out := some b.nextBinderParcelHandle }
  else b.transactionRefused t statusOk

/-- The interface token at the start of the input. -/
def BinderClass.accepts (c : BinderClass) (input : Option BinderParcel) : Bool :=
  !c.interfaceTokenHeader || (input.bind fun p => p.values[0]?).any fun v =>
    v.kind = .interfaceToken && v.text = c.descriptor

/-- A transaction with a binder of the guest, up to the call of
`on_transact`. -/
def Binders.transactLocal (b : Binders) (t : Transaction) (c : BinderClass) : Outcome :=
  let input := if t.input ≠ 0 then b.parcels t.input else none
  if c.onTransact = 0 then { binders := b, result := statusInvalidOperation }
  else if !c.accepts input then b.transactionRefused t statusBadType
  else
    let read := match input with
      | none => b
      | some p => b.setParcel t.input
          (some { p with cursor := if c.interfaceTokenHeader then 1 else 0 })
    if !t.oneway && t.wantsReply then
      { binders := read.createParcel
          { targetBinder := t.binder, transactionCode := t.code, reply := true }
        out := some b.nextBinderParcelHandle }
    else { binders := read, out := if t.wantsReply then some 0 else none }

/-- What follows the call of `on_transact`: the reply is rewound and the
input deleted. -/
def Binders.transactReturn (b : Binders) (input reply : ℕ) : Outcome where
  binders :=
    (if reply ≠ 0 then
        b.setParcel reply (some { (b.parcels reply).getD {} with cursor := 0 })
      else b).consumeInput input

/-- The number the runtime answers with for a service nobody provides:
the first 32-bit number of the input, if any, plus the code. -/
def echoValue (input : Option BinderParcel) (code : UInt32) : UInt64 :=
  let first := (input.bind fun p => p.values.find? fun v =>
    v.kind = .int32 || v.kind = .uint32).map fun v => v.value.toUInt32
  ((first.getD 0 + code).toInt32).toInt64.toUInt64

/-- `AIBinder_transact`. `daemon` is the reply of the daemon, if the
request was delivered. -/
def Binders.transact (b : Binders) (t : Transaction) (daemon : Option Bytes) : Outcome :=
  match b.services t.binder with
  | none => { binders := b, result := statusBadValue }
  | some s =>
    if t.input ≠ 0 && (b.parcels t.input).isNone then { binders := b, result := statusBadValue }
    else if !s.alive then b.transactionRefused t statusDeadObject
    else if !s.remote && s.classHandle ≠ 0 then
      match b.classes s.classHandle with
      | none => { binders := b, result := statusInvalidOperation }
      | some c => b.transactLocal t c
    else if s.daemonOwned then
      match daemon with
      | none =>
        (b.modify t.binder fun s => { s with alive := false }).transactionRefused t
          statusDeadObject
      | some payload =>
        if !t.oneway && t.wantsReply then
          match decodeParcel payload with
          | .error _ => b.transactionRefused t statusBadValue
          | .ok values => b.transactionReplied t
              ({ kind := .status } :: values.filter (·.kind ≠ .interfaceToken))
        else b.transactionRefused t statusOk
    else
      b.transactionReplied t
        [{ kind := .status },
         { kind := .int32
           value := echoValue (if t.input ≠ 0 then b.parcels t.input else none) t.code }]

/-! ## Calls -/

inductive BinderCall
  | serviceLookup (name : Bytes) (owned : Bool)
  | addService (handle : ℕ) (name : Bytes)
  | classDefine (descriptor : Bytes) (onCreate onDestroy onTransact : ℕ)
  | disableInterfaceTokenHeader (clazz : ℕ)
  | new (clazz args created : ℕ)
  | associateClass (handle clazz : ℕ)
  | incStrong (handle : ℕ)
  | decStrong (handle : ℕ)
  | weakNew (handle : ℕ)
  | weakDelete (weak : ℕ)
  | weakPromote (weak : ℕ)
  | weakClone (weak : ℕ)
  | setExtension (handle extension : ℕ)
  | getExtension (handle out : ℕ)
  | deathRecipientNew (onBinderDied : ℕ)
  | deathRecipientSetOnUnlinked (recipient onUnlinked : ℕ)
  | deathRecipientDelete (recipient : ℕ)
  | linkToDeath (handle recipient cookie : ℕ)
  | unlinkToDeath (handle recipient cookie : ℕ)
  | muplarBinderKill (handle : ℕ)
  | appendValue (parcel : ℕ) (value : BinderParcelValue)
  | writeStrongBinder (parcel : ℕ) (binder : UInt64)
  | readOther (parcel : ℕ) (expected : BinderParcelKind)
  | readStrongBinder (parcel : ℕ)
  | setDataPosition (parcel : ℕ) (position : Int32)
  | parcelDelete (parcel : ℕ)
  | prepareTransaction (handle out : ℕ)
  | transact (t : Transaction) (daemon : Option Bytes)
  | transactReturn (input reply : ℕ)
  deriving DecidableEq

def Binders.call (b : Binders) : BinderCall → Outcome
  | .serviceLookup name owned => b.serviceLookup name owned
  | .addService handle name => b.addService handle name
  | .classDefine descriptor onCreate onDestroy onTransact =>
    b.classDefine descriptor onCreate onDestroy onTransact
  | .disableInterfaceTokenHeader clazz => b.disableInterfaceTokenHeader clazz
  | .new clazz args created => b.new clazz args created
  | .associateClass handle clazz => b.associateClass handle clazz
  | .incStrong handle => b.incStrong handle
  | .decStrong handle => b.decStrong handle
  | .weakNew handle => b.weakNew handle
  | .weakDelete weak => b.weakDelete weak
  | .weakPromote weak => b.weakPromote weak
  | .weakClone weak => b.weakClone weak
  | .setExtension handle extension => b.setExtension handle extension
  | .getExtension handle out => b.getExtension handle out
  | .deathRecipientNew onBinderDied => b.deathRecipientNew onBinderDied
  | .deathRecipientSetOnUnlinked recipient onUnlinked =>
    b.deathRecipientSetOnUnlinked recipient onUnlinked
  | .deathRecipientDelete recipient => b.deathRecipientDelete recipient
  | .linkToDeath handle recipient cookie => b.linkToDeath handle recipient cookie
  | .unlinkToDeath handle recipient cookie => b.unlinkToDeath handle recipient cookie
  | .muplarBinderKill handle => b.muplarBinderKill handle
  | .appendValue parcel value => b.appendValue parcel value
  | .writeStrongBinder parcel binder => b.writeStrongBinder parcel binder
  | .readOther parcel expected => b.readOther parcel expected
  | .readStrongBinder parcel => b.readStrongBinder parcel
  | .setDataPosition parcel position => b.setDataPosition parcel position
  | .parcelDelete parcel => { binders := b.setParcel parcel none }
  | .prepareTransaction handle out => b.prepareTransaction handle out
  | .transact t daemon => b.transact t daemon
  | .transactReturn input reply => b.transactReturn input reply

/-! ## What calls leave alone -/

/-- The entries, names and recipients are the same, and so is the next
handle. -/
structure SameTable (b b' : Binders) : Prop where
  services : b'.services = b.services
  names : b'.serviceByName = b.serviceByName
  next : b'.nextBinderHandle = b.nextBinderHandle
  recipients : b'.deathRecipients = b.deathRecipients

/-- The calls for classes, weak references and parcels. -/
def BinderCall.aside : BinderCall → Bool
  | .classDefine _ _ _ _ | .disableInterfaceTokenHeader _ => true
  | .weakNew _ | .weakDelete _ | .weakClone _ => true
  | .appendValue _ _ | .writeStrongBinder _ _ | .readOther _ _ | .setDataPosition _ _ => true
  | .parcelDelete _ | .prepareTransaction _ _ | .transactReturn _ _ => true
  | _ => false

theorem statusBadValue_ne_ok : statusBadValue ≠ statusOk := by decide

theorem statusAlreadyExists_ne_ok : statusAlreadyExists ≠ statusOk := by decide

section Entries

variable {b : Binders} {handle k : ℕ} (f : BinderService → BinderService)

theorem modify_services_self :
    (b.modify handle f).services handle = (b.services handle).map f :=
  Function.update_self ..

theorem modify_services_of_ne (h : k ≠ handle) :
    (b.modify handle f).services k = b.services k :=
  Function.update_of_ne h ..

theorem modify_of_none (h : b.services handle = none) : b.modify handle f = b := by
  rw [Binders.modify, h, Option.map_none, ← h, Function.update_eq_self]

theorem erase_services_self : (b.erase handle).services handle = none :=
  Function.update_self ..

theorem erase_services_of_ne (h : k ≠ handle) : (b.erase handle).services k = b.services k :=
  Function.update_of_ne h ..

end Entries

section Aside

variable (b : Binders)

theorem SameTable.refl : SameTable b b :=
  ⟨rfl, rfl, rfl, rfl⟩

theorem SameTable.trans {b b' b'' : Binders} (h : SameTable b b') (h' : SameTable b' b'') :
    SameTable b b'' :=
  ⟨h'.services.trans h.services, h'.names.trans h.names, h'.next.trans h.next,
    h'.recipients.trans h.recipients⟩

theorem SameTable.consumeInput (input : ℕ) : SameTable b (b.consumeInput input) := by
  unfold Binders.consumeInput
  split <;> exact ⟨rfl, rfl, rfl, rfl⟩

theorem appendValue_spec (handle : ℕ) (value : BinderParcelValue) :
    SameTable b (b.appendValue handle value).binders ∧
      (b.appendValue handle value).callbacks = [] := by
  unfold Binders.appendValue
  split <;> exact ⟨⟨rfl, rfl, rfl, rfl⟩, rfl⟩

theorem parcelRead_spec {handle : ℕ} {expected : BinderParcelKind} {read : Binders}
    {value : BinderParcelValue} (h : b.readValue handle expected = .ok (read, value)) :
    SameTable b read ∧ ∃ p, b.parcels handle = some p ∧ p.values[p.cursor]? = some value := by
  unfold Binders.readValue at h
  split at h
  · cases h
  · next p hp =>
    split at h
    · cases h
    · next v hv =>
      split at h
      · cases h
      · cases h
        exact ⟨⟨rfl, rfl, rfl, rfl⟩, p, hp, hv⟩

theorem prepareTransaction_spec (handle out : ℕ) :
    SameTable b (b.prepareTransaction handle out).binders ∧
      (b.prepareTransaction handle out).callbacks = [] := by
  unfold Binders.prepareTransaction
  split
  · exact ⟨SameTable.refl b, rfl⟩
  · split
    · exact ⟨SameTable.refl b, rfl⟩
    · split
      · exact ⟨SameTable.refl b, rfl⟩
      · split
        · split <;> exact ⟨⟨rfl, rfl, rfl, rfl⟩, rfl⟩
        · exact ⟨⟨rfl, rfl, rfl, rfl⟩, rfl⟩

theorem aside_spec {c : BinderCall} (h : c.aside = true) :
    SameTable b (b.call c).binders ∧ (b.call c).callbacks = [] := by
  cases c with
  | classDefine descriptor onCreate onDestroy onTransact =>
    simp only [Binders.call, Binders.classDefine]
    split <;> exact ⟨⟨rfl, rfl, rfl, rfl⟩, rfl⟩
  | disableInterfaceTokenHeader clazz => exact ⟨⟨rfl, rfl, rfl, rfl⟩, rfl⟩
  | weakNew handle =>
    simp only [Binders.call, Binders.weakNew]
    split <;> exact ⟨⟨rfl, rfl, rfl, rfl⟩, rfl⟩
  | weakDelete weak => exact ⟨⟨rfl, rfl, rfl, rfl⟩, rfl⟩
  | weakClone weak =>
    simp only [Binders.call, Binders.weakClone]
    split <;> exact ⟨⟨rfl, rfl, rfl, rfl⟩, rfl⟩
  | appendValue parcel value => exact appendValue_spec b parcel value
  | writeStrongBinder parcel binder => exact appendValue_spec b parcel _
  | readOther parcel expected =>
    simp only [Binders.call, Binders.readOther]
    split
    · exact ⟨SameTable.refl b, rfl⟩
    · next read value hread => exact ⟨(parcelRead_spec b hread).1, rfl⟩
  | setDataPosition parcel position =>
    simp only [Binders.call, Binders.setDataPosition]
    split
    · exact ⟨SameTable.refl b, rfl⟩
    · split <;> exact ⟨⟨rfl, rfl, rfl, rfl⟩, rfl⟩
  | parcelDelete parcel => exact ⟨⟨rfl, rfl, rfl, rfl⟩, rfl⟩
  | prepareTransaction handle out => exact prepareTransaction_spec b handle out
  | transactReturn input reply =>
    refine ⟨SameTable.trans ?_ (SameTable.consumeInput _ input), rfl⟩
    split <;> exact ⟨rfl, rfl, rfl, rfl⟩
  | _ => cases h

theorem transactionRefused_spec (t : Transaction) (status : ℕ) :
    SameTable b (b.transactionRefused t status).binders ∧
      (b.transactionRefused t status).callbacks = [] :=
  ⟨SameTable.consumeInput b t.input, rfl⟩

theorem transactionReplied_spec (t : Transaction) (values : List BinderParcelValue) :
    SameTable b (b.transactionReplied t values).binders ∧
      (b.transactionReplied t values).callbacks = [] := by
  unfold Binders.transactionReplied
  split
  · refine ⟨SameTable.trans ?_ (SameTable.consumeInput _ t.input), rfl⟩
    exact ⟨rfl, rfl, rfl, rfl⟩
  · exact transactionRefused_spec b t statusOk

theorem transactLocal_spec (t : Transaction) (c : BinderClass) :
    SameTable b (b.transactLocal t c).binders ∧ (b.transactLocal t c).callbacks = [] := by
  unfold Binders.transactLocal
  simp only
  generalize (if t.input ≠ 0 then b.parcels t.input else none) = input
  split
  · exact ⟨SameTable.refl b, rfl⟩
  · split
    · exact transactionRefused_spec b t statusBadType
    · cases input with
      | none => split <;> exact ⟨⟨rfl, rfl, rfl, rfl⟩, rfl⟩
      | some p => split <;> exact ⟨⟨rfl, rfl, rfl, rfl⟩, rfl⟩

/-- The request goes to the daemon and is not delivered. -/
def Transaction.Fails (b : Binders) (t : Transaction) (daemon : Option Bytes) : Prop :=
  daemon = none ∧ ¬(t.input ≠ 0 ∧ b.parcels t.input = none) ∧
    ∃ s, b.services t.binder = some s ∧ s.alive = true ∧
      (s.remote = true ∨ s.classHandle = 0) ∧ s.daemonOwned = true

/-- **What a transaction does to the table.** Nothing, unless its request
is not delivered: then the binder is marked dead. -/
theorem transact_spec (t : Transaction) (daemon : Option Bytes) :
    (b.transact t daemon).callbacks = [] ∧
      (¬t.Fails b daemon ∧ SameTable b (b.transact t daemon).binders ∨
        t.Fails b daemon ∧ SameTable (b.modify t.binder fun s => { s with alive := false })
          (b.transact t daemon).binders) := by
  unfold Binders.transact
  cases hs : b.services t.binder with
  | none =>
    refine ⟨rfl, Or.inl ⟨?_, SameTable.refl b⟩⟩
    rintro ⟨-, -, s, hs', -⟩
    rw [hs] at hs'
    cases hs'
  | some s =>
    simp only
    split
    · next hinput =>
      refine ⟨rfl, Or.inl ⟨?_, SameTable.refl b⟩⟩
      rintro ⟨-, hno, -⟩
      simp only [ne_eq, decide_not, Bool.and_eq_true, Bool.not_eq_true', decide_eq_false_iff_not,
        Option.isNone_iff_eq_none] at hinput
      exact hno hinput
    · next hinput =>
      split
      · next hdead =>
        have hspec := transactionRefused_spec b t statusDeadObject
        refine ⟨hspec.2, Or.inl ⟨?_, hspec.1⟩⟩
        rintro ⟨-, -, s', hs', halive, -⟩
        rw [hs] at hs'
        rw [← Option.some.inj hs'] at halive
        simp [halive] at hdead
      · next halive =>
        split
        · next hlocal =>
          simp only [ne_eq, decide_not, Bool.and_eq_true, Bool.not_eq_true',
            decide_eq_false_iff_not] at hlocal
          have hno : ¬t.Fails b daemon := by
            rintro ⟨-, -, s', hs', -, hremote, -⟩
            rw [hs] at hs'
            rw [← Option.some.inj hs'] at hremote
            rcases hremote with hremote | hclass
            · rw [hlocal.1] at hremote
              cases hremote
            · exact hlocal.2 hclass
          split
          · exact ⟨rfl, Or.inl ⟨hno, SameTable.refl b⟩⟩
          · next c hc =>
            have hspec := transactLocal_spec b t c
            exact ⟨hspec.2, Or.inl ⟨hno, hspec.1⟩⟩
        · next hremote =>
          split
          · next hdaemon =>
            split
            · have hspec := transactionRefused_spec
                (b.modify t.binder fun s => { s with alive := false }) t statusDeadObject
              refine ⟨hspec.2, Or.inr ⟨⟨rfl, ?_, s, hs, by simpa using halive, ?_, hdaemon⟩,
                hspec.1⟩⟩
              · rintro ⟨hne, hnone⟩
                simp [hne, hnone] at hinput
              · by_cases hr : s.remote = true
                · exact Or.inl hr
                · simp only [ne_eq, decide_not, Bool.and_eq_true, Bool.not_eq_true',
                    decide_eq_false_iff_not, not_and, not_not] at hremote
                  exact Or.inr (hremote (by simpa using hr))
            · have hno : ∀ payload, ¬t.Fails b (some payload) := by
                rintro payload ⟨hnone, -⟩
                cases hnone
              split
              · split
                · have hspec := transactionRefused_spec b t statusBadValue
                  exact ⟨hspec.2, Or.inl ⟨hno _, hspec.1⟩⟩
                · next values _ =>
                  have hspec := transactionReplied_spec b t
                    ({ kind := .status } :: values.filter (·.kind ≠ .interfaceToken))
                  exact ⟨hspec.2, Or.inl ⟨hno _, hspec.1⟩⟩
              · have hspec := transactionRefused_spec b t statusOk
                exact ⟨hspec.2, Or.inl ⟨hno _, hspec.1⟩⟩
          · next hdaemon =>
            refine ⟨(transactionReplied_spec b t _).2,
              Or.inl ⟨?_, (transactionReplied_spec b t _).1⟩⟩
            rintro ⟨-, -, s', hs', -, -, howned⟩
            rw [hs] at hs'
            rw [← Option.some.inj hs'] at howned
            exact hdaemon howned

end Aside

end Android

end Muplar
